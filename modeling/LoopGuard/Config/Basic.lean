import LoopGuard.Store.Writer

/-!
# Configuration

The settings of the daemon in four sections, with their defaults.
-/

namespace LoopGuard

namespace Config

/-- Which links are managed, and how refreshes are delayed. -/
structure Topology where
  /-- The topology whose links are managed. -/
  topologyId : String := "flow:1"
  /-- The delay before a refresh, in milliseconds. -/
  refreshDelay : UInt64 := 1000
  /-- How often new events may push a refresh back. -/
  maxReschedules : UInt32 := 10
  /-- The word in a link id that marks a host link. -/
  hostMarker : String := "host"
deriving DecidableEq, Repr

/-- Where the database is. -/
structure Database where
  host : String := "127.0.0.1"
  port : UInt16 := 6379
  /-- The number of the database that publishes links. -/
  links : Int64 := 0
  /-- The number of the database that records statuses. -/
  statuses : Int64 := 6
deriving DecidableEq, Repr

/-- How commits are retried. -/
structure Writer where
  /-- The attempts at a commit, the first included. -/
  maxAttempts : UInt32 := 3
  /-- The pause between attempts, in milliseconds. -/
  retryBackoff : UInt64 := 100
deriving DecidableEq, Repr

/-- How the link table is followed. -/
structure Feed where
  /-- The time between two readings of the link table, in milliseconds. -/
  pollInterval : UInt64 := 1000
deriving DecidableEq, Repr

end Config

/-- The settings of the daemon. -/
structure Config where
  topology : Config.Topology := {}
  database : Config.Database := {}
  writer : Config.Writer := {}
  feed : Config.Feed := {}
deriving DecidableEq, Repr

namespace Config

/-- The settings that hold when nothing is configured. -/
def default : Config := {}

def retryPolicy (config : Config) : RetryPolicy where
  maxAttempts := config.writer.maxAttempts.toNat
  backoff := config.writer.retryBackoff.toNat

end Config

end LoopGuard
