import LoopGuard.Engine.Basic

/-!
# The worker

The worker waits until work is queued, sleeps out the refresh delay, takes the
queued changes and refreshes: it changes the graph, resolves every port and
commits the result. A failed refresh is scheduled anew; so is one during which
more work arrived.

`work` is one step of the worker between two points at which a caller may come
in. A worker that has to wait stays as it is. `halt` is the step of a worker
that finds the engine shut down; where both are open, either may happen.
-/

namespace LoopGuard

namespace Engine

variable {σ : Type}

/-! ## Stages of a refresh -/

/-- Starts to sleep out the refresh delay. -/
def delay (engine : Engine σ) (pushes : Nat) : Engine σ :=
  { engine with activity := .delaying pushes (engine.clock + engine.settings.refreshDelay) }

/-- Schedules a refresh if work is queued, and waits otherwise. -/
def check (engine : Engine σ) : Engine σ :=
  if engine.pending.queued then (engine.enter .scheduled).delay 0
  else { engine with activity := .parked }

/-- At the end of a delay: pushes the refresh back if work arrived meanwhile and
the limit is not reached. -/
def endDelay (engine : Engine σ) (pushes : Nat) : Engine σ :=
  if engine.pending.pushRequested && pushes < engine.settings.maxReschedules then
    delay
      { engine with
        pending := { engine.pending with pushRequested := false }
        stats := { engine.stats with reschedules := engine.stats.reschedules + 1 } }
      (pushes + 1)
  else { engine with activity := .taking }

/-- Takes all queued work and enters the refresh. -/
def take (engine : Engine σ) : Engine σ :=
  enter
    { engine with
      pending := engine.pending.taken
      activity := .changing engine.pending.changes }
    .refreshing

/-- Makes one change of the graph. The ports that lose a link are to discard
unless another link needs them. -/
def change (engine : Engine σ) (next : LinkChange) (later : List LinkChange) : Engine σ :=
  { engine with
    graph := next.apply engine.graph
    forced := engine.forced.insertMany next.releasedPorts
    activity := .changing later }

/-- Ends a refresh that could not be read or committed. -/
def fail (engine : Engine σ) : Engine σ :=
  { engine with
    stats := { engine.stats with failed := engine.stats.failed + 1 }
    activity := .finishing false }

def succeed (engine : Engine σ) (written : Nat) : Engine σ :=
  { engine with
    forced := ∅
    stats := { engine.stats with
      refreshes := engine.stats.refreshes + 1
      written := engine.stats.written + written }
    activity := .finishing true }

/-- Forces the recorded forwarding ports that no link ends in to discard. -/
def reconcile (engine : Engine σ) (recorded : StatusMap) : Engine σ :=
  let terminated : PortSet := .ofList (engine.graph.allLinks.flatMap Link.endpoints)
  let stale := recorded.toList.filter fun (port, status) =>
    status.isForwarding && !terminated.contains port
  { engine with
    forced := engine.forced.insertMany (stale.map (·.1))
    reconciled := true }

/-- Leaves a refresh, for another one if work is queued or this one failed. -/
def finish (engine : Engine σ) (committed : Bool) : Engine σ :=
  if engine.pending.queued || !committed then (engine.enter .scheduled).delay 0
  else { engine.enter .idle with activity := .checking }

variable [StatusStore σ]

def attempt (engine : Engine σ) (desired : StatusMap) (number : Nat) : Engine σ :=
  { engine with
    activity := .committing desired number (engine.clock + StatusStore.latency engine.store) }

/-- Resolves every port and starts to commit. -/
def resolve (engine : Engine σ) : Engine σ :=
  let (snapshot, graph) := engine.graph.snapshot
  let engine := { engine with graph }
  let desired := (StatusMap.resolve snapshot.links snapshot.forest).withForcedDiscards engine.forced
  if desired.isEmpty then engine.succeed 0 else engine.attempt desired 1

/-- Goes on once the graph is changed: the first time it looks through the
recorded statuses. -/
def review (engine : Engine σ) : Engine σ :=
  if engine.reconciled then engine.resolve
  else
    match StatusStore.recorded engine.store with
    | (.ok recorded, store) => ({ engine with store }.reconcile recorded).resolve
    | (.error _, store) => { engine with store }.fail

def commit (engine : Engine σ) (desired : StatusMap) (number : Nat) : Engine σ :=
  match StatusStore.apply engine.store desired with
  | (.ok outcome, store) => { engine with store }.succeed outcome.written
  | (.error error, store) =>
    if engine.policy.retries number error then
      { engine with
        store
        activity := .pausing desired number (engine.clock + engine.policy.backoff) }
    else { engine with store }.fail

/-! ## Steps -/

def work (engine : Engine σ) : Engine σ :=
  match engine.activity with
  | .checking => engine.check
  | .parked =>
    if engine.permit then { engine with permit := false, activity := .checking } else engine
  | .delaying pushes due => if engine.clock < due then engine else engine.endDelay pushes
  | .taking => engine.take
  | .changing (next :: later) => engine.change next later
  | .changing [] => engine.review
  | .committing desired number due =>
    if engine.clock < due then engine else engine.commit desired number
  | .pausing desired number due =>
    if engine.clock < due then engine else engine.attempt desired (number + 1)
  | .finishing committed => engine.finish committed
  | .stopped => engine

omit [StatusStore σ] in
/-- Whether the worker is at a point where it notices a shutdown. -/
def canHalt (engine : Engine σ) : Bool :=
  engine.cancelled &&
    match engine.activity with
    | .parked | .delaying .. => true
    | _ => false

omit [StatusStore σ] in
def halt (engine : Engine σ) : Engine σ :=
  if engine.canHalt then { engine with activity := .stopped } else engine

end Engine

end LoopGuard
