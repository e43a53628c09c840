import LoopGuard.Config.Read
import LoopGuard.Config.Validate
import LoopGuard.Daemon.LogFilter
import LoopGuard.Daemon.Options
import LoopGuard.Feed.Follow

/-!
# A run of the daemon

The daemon reads its configuration, connects to the database, and follows the
link table until it is told to stop. It asks for a refresh first, so that
records of earlier runs are looked through even if no link shows up.
-/

namespace LoopGuard.Daemon

/-- Why the daemon gave up: what it was doing, and what went wrong, from the
outermost cause to the innermost. -/
structure Failure where
  activity : String
  causes : List String
deriving DecidableEq, Repr

namespace Failure

/-- The causes of an error, from the outermost on. -/
def causesOf (error : GuardError) : List String :=
  match error with
  | .file _ failure => [error.message, failure.message]
  | _ => [error.message]

/-- The lines of the causes; several causes are numbered. -/
def causeLines (causes : List String) : List String :=
  match causes with
  | [cause] => ["    " ++ cause]
  | causes => causes.mapIdx fun i cause => "    " ++ toString i ++ ": " ++ cause

def message (failure : Failure) : String :=
  "\n".intercalate
    (["Error: " ++ failure.activity, "", "Caused by:"] ++ causeLines failure.causes) ++ "\n"

end Failure

/-- Reports an error as what stopped an activity. -/
def during {α : Type} (activity : String) (result : Except GuardError α) : Except Failure α :=
  result.mapError fun error => ⟨activity, Failure.causesOf error⟩

def connect (activity : String) (config : Config) : Except Failure Unit :=
  during activity
    ((Keyspace.connect config.database.host).mapError fun failure => .store failure.toStoreError)

/-- The configuration of a run, once the database can be addressed. -/
def prepare (options : Options) (file : Except FileFailure ByteArray) : Except Failure Config := do
  let loaded ← during ("loading " ++ options.config) (Config.load options.config file)
  let config := { loaded with
    topology := { loaded.topology with
      topologyId := options.topologyId.getD loaded.topology.topologyId } }
  during "validating configuration" config.validate
  connect "connecting to STATE_DB" config
  connect "connecting to APPL_DB" config
  return config

/-- The daemon when it starts to follow the link table. -/
def launch (config : Config) (server : Keyspace.Server) : Follower :=
  let store : Keyspace.RecordStore := ⟨server, config.database.statuses.toInt⟩
  let engine := Engine.start config.settings config.retryPolicy store 0
  { feed := .ofTopology config.database.links.toInt config.topology.topologyId
    engine := engine.requestRefresh.2 }

def shutdown (follower : Follower) : Follower :=
  { follower with engine := follower.engine.shutdown }

/-! ## What a run says -/

/-- The messages that mark the stages of a run. -/
inductive Milestone where
  | starting
  | feedStarted
  | signalReceived
  | shutdownComplete
  | exitingNormally
  | exitingWithError
deriving DecidableEq, Repr

namespace Milestone

def all : List Milestone :=
  [starting, feedStarted, signalReceived, shutdownComplete, exitingNormally, exitingWithError]

def text : Milestone → String
  | starting => "--- Starting loopremoverd ---"
  | feedStarted => "Topology feed started"
  | signalReceived => "Received shutdown signal"
  | shutdownComplete => "Graceful shutdown complete"
  | exitingNormally => "Daemon exiting normally"
  | exitingWithError => "Daemon exiting with error"

/-- The part of the daemon that a message comes from. -/
def target : Milestone → String
  | feedStarted => "sonic_loopremoverd::feed"
  | _ => "loopremoverd"

def level : Milestone → Level
  | exitingWithError => .error
  | _ => .info

end Milestone

/-- How a run ends. -/
inductive Outcome where
  /-- A flag was to be shown. -/
  | shown (flag : Flag)
  /-- The command line was wrong. -/
  | misused (error : UsageError)
  /-- The daemon could not start. -/
  | failed (options : Options) (failure : Failure)
  /-- The daemon ran until it was told to stop. -/
  | stopped (options : Options) (last : Follower)

namespace Outcome

def code : Outcome → Nat
  | shown _ | stopped .. => 0
  | failed .. => 1
  | misused _ => 2

def output : Outcome → String
  | shown flag => flag.text
  | _ => ""

def errors : Outcome → String
  | misused error => error.message
  | failed _ failure => failure.message
  | shown _ | stopped .. => ""

/-- The milestones that the run passes, as far as the log filter shows them. -/
def milestones : Outcome → List Milestone
  | shown _ | misused _ => []
  | failed options _ => shownBy options [.starting, .exitingWithError]
  | stopped options _ =>
    shownBy options
      [.starting, .feedStarted, .signalReceived, .shutdownComplete, .exitingNormally]
where
  /-- The milestones that the log filter shows. -/
  shownBy (options : Options) (passed : List Milestone) : List Milestone :=
    let filter := LogFilter.ofText options.logLevel
    passed.filter fun milestone => filter.shows milestone.target milestone.level

end Outcome

/-- A run with these arguments on a server, which is told to stop once it has
nothing left to do. `file` gives the content of the file at a path. -/
def run (arguments : List String) (file : String → Except FileFailure ByteArray)
    (server : Keyspace.Server) : Outcome :=
  match Invocation.ofArguments arguments with
  | .error error => .misused error
  | .ok (.show flag) => .shown flag
  | .ok (.run options) =>
    match prepare options (file options.config) with
    | .error failure => .failed options failure
    | .ok config => .stopped options (shutdown (launch config server).follow.quiesce)

end LoopGuard.Daemon
