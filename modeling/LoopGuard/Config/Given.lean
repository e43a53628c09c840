import LoopGuard.Config.Basic

/-!
# Settings that are given

A configuration file gives some settings and leaves the others at their
defaults. `Config.Given` holds what is given, field by field.
-/

namespace LoopGuard.Config

namespace Given

/-- The topology settings that are given. -/
structure Topology where
  topologyId : Option String := none
  refreshDelay : Option UInt64 := none
  maxReschedules : Option UInt32 := none
  hostMarker : Option String := none
deriving DecidableEq, Repr

/-- The database settings that are given. -/
structure Database where
  host : Option String := none
  port : Option UInt16 := none
  links : Option Int64 := none
  statuses : Option Int64 := none
deriving DecidableEq, Repr

/-- The writer settings that are given. -/
structure Writer where
  maxAttempts : Option UInt32 := none
  retryBackoff : Option UInt64 := none
deriving DecidableEq, Repr

/-- The feed settings that are given. -/
structure Feed where
  pollInterval : Option UInt64 := none
deriving DecidableEq, Repr

end Given

/-- The settings that are given. -/
structure Given where
  topology : Given.Topology := {}
  database : Given.Database := {}
  writer : Given.Writer := {}
  feed : Given.Feed := {}
deriving DecidableEq, Repr

def given (config : Config) : Given where
  topology := {
    topologyId := config.topology.topologyId
    refreshDelay := config.topology.refreshDelay
    maxReschedules := config.topology.maxReschedules
    hostMarker := config.topology.hostMarker }
  database := {
    host := config.database.host
    port := config.database.port
    links := config.database.links
    statuses := config.database.statuses }
  writer := {
    maxAttempts := config.writer.maxAttempts
    retryBackoff := config.writer.retryBackoff }
  feed := { pollInterval := config.feed.pollInterval }

/-- A configuration with the given settings in the place of its own. -/
def Given.overlay (given : Given) (config : Config) : Config where
  topology := {
    topologyId := given.topology.topologyId.getD config.topology.topologyId
    refreshDelay := given.topology.refreshDelay.getD config.topology.refreshDelay
    maxReschedules := given.topology.maxReschedules.getD config.topology.maxReschedules
    hostMarker := given.topology.hostMarker.getD config.topology.hostMarker }
  database := {
    host := given.database.host.getD config.database.host
    port := given.database.port.getD config.database.port
    links := given.database.links.getD config.database.links
    statuses := given.database.statuses.getD config.database.statuses }
  writer := {
    maxAttempts := given.writer.maxAttempts.getD config.writer.maxAttempts
    retryBackoff := given.writer.retryBackoff.getD config.writer.retryBackoff }
  feed := { pollInterval := given.feed.pollInterval.getD config.feed.pollInterval }

end LoopGuard.Config
