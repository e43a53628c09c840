import LoopGuard.Config.Basic
import LoopGuard.Engine.Pending
import LoopGuard.Error
import LoopGuard.Status.Resolve

/-!
# The engine

The engine keeps a fabric free of loops. Callers report link changes, which
wait in a slot; a single worker takes them after a delay, changes the graph,
works out every port's status and commits it to the store. The state of both
sides is one `Engine`, and everything a caller or the worker does without being
interrupted is one function on it.

A caller's `submit` passes through several such sections: it looks whether the
engine is shut down, queues its changes, is counted, and wakes the worker.
-/

namespace LoopGuard

/-- How the worker delays refreshes and tells hosts apart. -/
structure Settings where
  /-- The delay before a refresh, in milliseconds. -/
  refreshDelay : Nat
  /-- How often one refresh may be pushed back. -/
  maxReschedules : Nat
  hostMarker : String
deriving DecidableEq, Repr

/-- The settings that a configuration gives the worker. -/
def Config.settings (config : Config) : Settings where
  refreshDelay := config.topology.refreshDelay.toNat
  maxReschedules := config.topology.maxReschedules.toNat
  hostMarker := config.topology.hostMarker

/-- What the engine counts. -/
structure Stats where
  /-- Events accepted with links in them. -/
  received : Nat := 0
  /-- Events dropped because they carried host links only. -/
  ignored : Nat := 0
  /-- Refreshes whose commit succeeded. -/
  refreshes : Nat := 0
  /-- Refreshes that failed. -/
  failed : Nat := 0
  /-- How often a refresh was pushed back. -/
  reschedules : Nat := 0
  /-- Records written in all refreshes. -/
  written : Nat := 0
deriving DecidableEq, Repr

/-- Where the worker is. The fields named `due` hold the time at which it goes
on. -/
inductive Activity where
  /-- Looks whether work is queued. -/
  | checking
  /-- Waits to be woken. -/
  | parked
  /-- Sleeps out the refresh delay, which was pushed back `pushes` times. -/
  | delaying (pushes due : Nat)
  /-- Is about to take the queued work. -/
  | taking
  /-- Has these changes of the graph still to make. -/
  | changing (changes : List LinkChange)
  /-- Waits for an attempt to commit to take effect. -/
  | committing (desired : StatusMap) (attempt due : Nat)
  /-- Pauses after a failed attempt. -/
  | pausing (desired : StatusMap) (attempt due : Nat)
  /-- Is about to leave a refresh. -/
  | finishing (committed : Bool)
  /-- Has ended. -/
  | stopped

/-- The engine and the store that it writes. -/
structure Engine (σ : Type) where
  settings : Settings
  policy : RetryPolicy
  store : σ
  /-- The time in milliseconds. -/
  clock : Nat := 0
  pending : Pending := {}
  /-- The stage that subscribers see. -/
  published : Stage := .idle
  /-- The worker was woken and did not notice yet. -/
  permit : Bool := false
  /-- The engine was told to shut down. -/
  cancelled : Bool := false
  /-- The handle by which the end of the worker is awaited was not taken yet. -/
  handle : Bool := true
  activity : Activity := .checking
  graph : LinkGraph := .empty
  /-- Ports that lost a link and are not yet committed as discarding. -/
  forced : PortSet := ∅
  /-- Records of earlier runs have been looked through. -/
  reconciled : Bool := false
  stats : Stats := {}

namespace Engine

variable {σ : Type}

/-- An engine whose worker starts at the given time. -/
def start (settings : Settings) (policy : RetryPolicy) (store : σ) (clock : Nat) : Engine σ :=
  { settings, policy, store, clock }

def enter (engine : Engine σ) (stage : Stage) : Engine σ :=
  { engine with
    pending := { engine.pending with stage }
    published := stage }

/-! ## Calls -/

/-- Queues the changes of an event that carries links. -/
def enqueue (engine : Engine σ) (event : LinkEvent) : Engine σ :=
  { engine with pending := engine.pending.enqueue event }

def countReceived (engine : Engine σ) : Engine σ :=
  { engine with stats := { engine.stats with received := engine.stats.received + 1 } }

def countIgnored (engine : Engine σ) : Engine σ :=
  { engine with stats := { engine.stats with ignored := engine.stats.ignored + 1 } }

/-- Wakes the worker, or lets it pass when it waits next. -/
def wake (engine : Engine σ) : Engine σ := { engine with permit := true }

/-- Reports changes of the topology; they take effect with the next refresh. -/
def submit (engine : Engine σ) (event : LinkEvent) : Except GuardError Unit × Engine σ :=
  if engine.cancelled then (.error .shutdown, engine)
  else
    let event := event.withoutHostLinks engine.settings.hostMarker
    if event.isEmpty then (.ok (), engine.countIgnored)
    else (.ok (), ((engine.enqueue event).countReceived).wake)

/-- Asks for a refresh without a change of the topology. -/
def requestRefresh (engine : Engine σ) : Except GuardError Unit × Engine σ :=
  if engine.cancelled then (.error .shutdown, engine)
  else (.ok (), { engine with pending := engine.pending.markQueued }.wake)

def cancel (engine : Engine σ) : Engine σ := { engine with cancelled := true }

/-- Takes the handle of the worker, for one who awaits its end. -/
def takeHandle (engine : Engine σ) : Engine σ := { engine with handle := false }

end Engine

end LoopGuard
