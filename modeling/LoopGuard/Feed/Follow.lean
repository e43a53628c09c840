import LoopGuard.Engine.Clock
import LoopGuard.Feed.LinkFeed
import LoopGuard.Keyspace.RecordStore

/-!
# Feeding the engine

The daemon polls the link table at a fixed rate and hands each change to the
engine. Failed polls and polls without a change are passed over; the feed stops
once the engine accepts no more events.
-/

namespace LoopGuard

/-- An engine on a database, the feed that drives it, and whether the feed has
stopped. -/
structure Follower where
  feed : LinkFeed
  engine : Engine Keyspace.RecordStore
  stopped : Bool := false

namespace Follower

def mapServer (follower : Follower) (f : Keyspace.Server → Keyspace.Server) : Follower :=
  { follower with
    engine := { follower.engine with
      store := { follower.engine.store with server := f follower.engine.store.server } } }

/-- Polls the link table once and hands the change to the engine. -/
def follow (follower : Follower) : Follower :=
  let (result, feed, server) := follower.feed.poll follower.engine.store.server
  let follower := { follower with feed }.mapServer fun _ => server
  match result with
  | .error _ => follower
  | .ok event =>
    if event.isEmpty then follower
    else
      match follower.engine.submit event with
      | (.ok (), engine) => { follower with engine }
      | (.error _, engine) => { follower with engine, stopped := true }

def quiesce (follower : Follower) : Follower :=
  { follower with engine := follower.engine.quiesce }

end Follower

end LoopGuard
