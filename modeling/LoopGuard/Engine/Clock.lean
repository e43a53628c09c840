import LoopGuard.Engine.Worker

/-!
# Running against the clock

Time stands still while the worker can go on, and passes while it waits. These
functions run an engine that way: `settle` lets the worker go on until it
waits, `advanceTo` lets time pass up to a moment, and `shutdown` up to the end
of the worker. A worker that finds the engine shut down stops at once. The
number of steps is bounded, since a store may fail for ever.
-/

namespace LoopGuard

namespace Engine

variable {σ : Type}

/-- The time at which the worker goes on by itself, if it waits for one. -/
def due? (engine : Engine σ) : Option Nat :=
  match engine.activity with
  | .delaying _ due | .committing _ _ due | .pausing _ _ due => some due
  | _ => none

def isWaiting (engine : Engine σ) : Bool :=
  match engine.activity with
  | .parked => !engine.permit
  | .stopped => true
  | _ => engine.due?.any (engine.clock < ·)

def isStopped (engine : Engine σ) : Bool :=
  match engine.activity with
  | .stopped => true
  | _ => false

/-- Whether the worker waits with nothing to do. -/
def isIdle (engine : Engine σ) : Bool :=
  match engine.activity with
  | .parked => !engine.permit
  | _ => false

/-- More steps than any worker takes at one moment. -/
def patience : Nat := 100000

variable [StatusStore σ]

/-- Lets the worker go on until it waits, for at most `steps` steps. -/
def settleWithin (steps : Nat) (engine : Engine σ) : Engine σ :=
  match steps with
  | 0 => engine
  | steps + 1 =>
    if engine.canHalt then engine.halt
    else if engine.isWaiting then engine
    else settleWithin steps engine.work

/-- Lets the worker go on until it waits. -/
def settle (engine : Engine σ) : Engine σ := settleWithin patience engine

/-- Passes from one moment at which the worker goes on to the next, as long as
`goOn` holds and no such moment lies after `limit`. -/
def runWithin (steps : Nat) (goOn : Engine σ → Bool) (limit : Option Nat) (engine : Engine σ) :
    Engine σ :=
  match steps with
  | 0 => engine
  | steps + 1 =>
    if !goOn engine then engine
    else
      match engine.due? with
      | none => engine
      | some due =>
        if limit.any (· < due) then engine
        else runWithin steps goOn limit { engine with clock := max engine.clock due }.settle

def advanceTo (engine : Engine σ) (moment : Nat) : Engine σ :=
  let engine := runWithin patience (fun _ => true) (some moment) engine.settle
  { engine with clock := max engine.clock moment }

def elapse (engine : Engine σ) (span : Nat) : Engine σ := engine.advanceTo (engine.clock + span)

/-- Lets time pass until the stage is reached, or the span is over; tells
whether it was reached. -/
def await (engine : Engine σ) (stage : Stage) (span : Nat) : Bool × Engine σ :=
  let limit := engine.clock + span
  let engine := runWithin patience (fun engine => engine.published ≠ stage) (some limit)
    engine.settle
  if engine.published = stage then (true, engine)
  else (false, { engine with clock := max engine.clock limit })

/-- Lets time pass until the worker waits with nothing to do. -/
def quiesce (engine : Engine σ) : Engine σ :=
  runWithin patience (fun engine => !engine.isIdle) none engine.settle

/-- Lets another writer apply statuses to the engine's store. -/
def applyBeside (engine : Engine σ) (desired : StatusMap) :
    Except StoreError ApplyOutcome × Engine σ :=
  let engine := engine.elapse (StatusStore.latency engine.store)
  let applied := StatusStore.apply engine.store desired
  (applied.1, { engine with store := applied.2 })

/-- Shuts the engine down. Who finds the handle of the worker waits for its end, so that a
commit in flight is carried out first; who finds it taken is done at once. -/
def shutdown (engine : Engine σ) : Engine σ :=
  let told := engine.cancel.takeHandle
  if engine.handle then runWithin patience (fun engine => !engine.isStopped) none told.settle
  else told

end Engine

end LoopGuard
