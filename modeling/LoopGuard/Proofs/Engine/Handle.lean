import LoopGuard.Proofs.Engine.Calls
import LoopGuard.Proofs.Engine.Pass

/-!
# Who waits for the worker

A shutdown call returns after the worker's end only if it got the handle of the worker.
The handle is there until the first call goes for it, so one call has it for good, even
if its caller drops it (`World.Handled`). Any other call returns as soon as it finds the
handle gone, whatever the worker does.
-/

namespace LoopGuard

variable {σ : Type}

namespace Closing

/-- Whether the call took the handle of the worker. -/
def tookHandle : Closing → Bool
  | .waiting | .returned true | .dropped => true
  | .told | .returned false => false

variable {engine : Engine σ} {closing : Closing}

/-- A call takes the handle in the section that goes for it, if the handle is there. -/
theorem tookHandle_next :
    (closing.next engine).tookHandle = true ↔
      closing.tookHandle = true ∨ (closing = .told ∧ engine.handle = true) := by
  cases closing with
  | told => cases handle : engine.handle <;> simp [next, tookHandle, handle]
  | waiting => cases stopped : engine.isStopped <;> simp [next, tookHandle, stopped]
  | returned | dropped => simp [next]

theorem tookHandle_drop : closing.drop.tookHandle = closing.tookHandle := by
  cases closing <;> rfl

theorem next_ne_told : closing.next engine ≠ .told := by
  cases closing with
  | told => cases handle : engine.handle <;> simp [next, handle]
  | waiting => cases stopped : engine.isStopped <;> simp [next, stopped]
  | returned | dropped => simp [next]

/-- A call misses the handle only where it is gone. -/
theorem of_next_eq_missed (missed : closing.next engine = .returned false) :
    closing = .returned false ∨ engine.handle = false := by
  cases closing with
  | told => cases handle : engine.handle <;> simp [next, handle] at missed ⊢
  | waiting => cases stopped : engine.isStopped <;> simp [next, stopped] at missed
  | returned | dropped => exact .inl missed

/-- A call that waits returns only at the worker's end. -/
theorem of_next_eq_awaited (awaited : closing.next engine = .returned true) :
    closing = .returned true ∨ engine.isStopped = true := by
  cases closing with
  | told => cases handle : engine.handle <;> simp [next, handle] at awaited
  | waiting => cases stopped : engine.isStopped <;> simp [next, stopped] at awaited ⊢
  | returned | dropped => exact .inl awaited

end Closing

namespace Engine

variable {engine next : Engine σ} {notes : Log}

theorem isStopped_iff : engine.isStopped = true ↔ engine.activity = .stopped := by
  unfold isStopped
  cases engine.activity <;> simp

theorem Section.handle_eq {call : Call} {left : List Call}
    (part : Section engine call next left notes) : next.handle = engine.handle := by
  cases part <;> rfl

variable [StatusStore σ]

theorem Move.handle_eq (move : Move engine notes next) : next.handle = engine.handle := by
  cases move with
  | settle _ reading | propose _ reading => cases reading <;> rfl
  | _ => rfl

/-- A worker that has ended does nothing. -/
theorem Move.of_stopped (move : Move engine notes next) (stopped : engine.activity = .stopped) :
    next = engine ∧ notes = [] := by
  cases move with
  | wait => exact ⟨rfl, rfl⟩
  | woken activity | park activity | schedule activity | pushBack activity | ready activity
  | take activity | change activity | unread activity | settle activity | propose activity
  | commit activity | pause activity | giveUp activity | retry activity | again activity
  | rest activity =>
    cases activity.symm.trans stopped

end Engine

namespace World

variable {world : World σ} {number : Nat}

/-- The worker has ended. -/
def IsStopped (world : World σ) : Prop := world.engine.activity = .stopped

/-- The shutdown call of this number took the handle of the worker. -/
def HasHandle (world : World σ) (number : Nat) : Prop :=
  ∃ closing, world.closings[number]? = some closing ∧ closing.tookHandle = true

theorem getElem?_conclude (world : World σ) (number other : Nat) :
    (world.conclude number).closings[other]? =
      if number = other then world.closings[other]?.map (Closing.next world.engine)
      else world.closings[other]? := by
  simp only [conclude, List.getElem?_modify]
  split <;> simp

theorem hasHandle_conclude_iff {other : Nat} :
    (world.conclude number).HasHandle other ↔
      world.HasHandle other ∨
        (number = other ∧ world.closings[number]? = some .told ∧
          world.engine.handle = true) := by
  unfold HasHandle
  rw [getElem?_conclude]
  by_cases same : number = other
  · subst same
    cases found : world.closings[number]? with
    | none => simp
    | some closing => simp [Closing.tookHandle_next]
  · simp [same]

/-- The handle of the worker is there until one call takes it, and a call returns
without it only after that. The call that waited returns only after the worker's end. -/
structure Handled (world : World σ) : Prop where
  taken : world.engine.handle = false ↔ ∃ number, world.HasHandle number
  single {first second : Nat} : world.HasHandle first → world.HasHandle second → first = second
  missed {number : Nat} :
    world.closings[number]? = some (.returned false) → world.engine.handle = false
  awaited {number : Nat} : world.closings[number]? = some (.returned true) → world.IsStopped

theorem Handled.conclude (handled : world.Handled) (number : Nat) :
    (world.conclude number).Handled := by
  obtain ⟨taken, single, missed, awaited⟩ := handled
  -- the handle is there only as long as no call has it
  have free : world.engine.handle = true → ∀ {other}, ¬world.HasHandle other := by
    intro there other has
    rw [taken.2 ⟨other, has⟩] at there
    cases there
  refine ⟨?_, ?_, ?_, ?_⟩
  · simp only [hasHandle_conclude_iff, exists_or, exists_eq_left', ← taken]
    simp only [World.conclude]
    by_cases told : world.closings[number]? = some .told
    · cases handle : world.engine.handle <;> simp [told]
    · simp [told]
  · intro first second has has'
    rw [hasHandle_conclude_iff] at has has'
    rcases has with has | ⟨rfl, -, there⟩ <;> rcases has' with has' | ⟨rfl, -, there'⟩
    · exact single has has'
    · exact absurd has (free there')
    · exact absurd has' (free there)
    · rfl
  · intro other found
    rw [getElem?_conclude] at found
    suffices gone : world.engine.handle = false by simp [World.conclude, gone]
    split at found
    next same =>
      obtain ⟨closing, before, next⟩ := Option.map_eq_some_iff.1 found
      rcases Closing.of_next_eq_missed next with rfl | gone
      · exact missed before
      · exact gone
    next => exact missed found
  · intro other found
    rw [getElem?_conclude] at found
    split at found
    next same =>
      obtain ⟨closing, before, next⟩ := Option.map_eq_some_iff.1 found
      rcases Closing.of_next_eq_awaited next with rfl | stopped
      · exact awaited before
      · exact Engine.isStopped_iff.1 stopped
    next => exact awaited found

/-- Whatever leaves the handle and the calls that have or miss it alone. -/
theorem Handled.of_closings (handled : world.Handled) {after : World σ}
    (handle : after.engine.handle = world.engine.handle)
    (stopped : world.IsStopped → after.IsStopped)
    (has : ∀ number, after.HasHandle number ↔ world.HasHandle number)
    (returned : ∀ (number : Nat) (waited : Bool),
      after.closings[number]? = some (.returned waited) →
        world.closings[number]? = some (.returned waited)) : after.Handled where
  taken := by simpa only [handle, has] using handled.taken
  single first second := handled.single ((has _).1 first) ((has _).1 second)
  missed found := handle.trans (handled.missed (returned _ _ found))
  awaited found := stopped (handled.awaited (returned _ _ found))

/-- A call that is dropped keeps what it took. -/
theorem Handled.drop (handled : world.Handled) (number : Nat) :
    { world with closings := world.closings.modify number Closing.drop }.Handled := by
  refine handled.of_closings rfl id (fun other => ?_) (fun other waited found => ?_)
  · simp only [HasHandle, List.getElem?_modify]
    cases world.closings[other]? with
    | none => simp
    | some closing => split <;> simp [Closing.tookHandle_drop]
  · simp only [List.getElem?_modify] at found
    obtain ⟨closing, before, dropped⟩ := Option.map_eq_some_iff.1 found
    rw [before]
    split at dropped
    · cases closing with
      | returned => exact congrArg some dropped
      | told | waiting | dropped => cases dropped
    · exact congrArg some dropped

/-- A call that begins has not got to the handle yet. -/
theorem Handled.shutdown (handled : world.Handled) :
    { world with
      engine := world.engine.cancel, closings := world.closings ++ [Closing.told] }.Handled := by
  have later {number : Nat} {closing : Closing} (other : closing ≠ .told) :
      (world.closings ++ [Closing.told])[number]? = some closing ↔
        world.closings[number]? = some closing := by
    rw [List.getElem?_append]
    split
    · rfl
    next outside =>
      rw [List.getElem?_eq_none (Nat.le_of_not_lt outside)]
      cases number - world.closings.length <;> simp [other.symm]
  refine handled.of_closings rfl id (fun number => ?_) (fun number waited => (later (by simp)).1)
  constructor
  · intro ⟨closing, found, took⟩
    exact ⟨closing, (later fun told => by cases told; cases took).1 found, took⟩
  · intro ⟨closing, found, took⟩
    exact ⟨closing, (later fun told => by cases told; cases took).2 found, took⟩

theorem closings_proceed {position : Nat} {call : Call} :
    (world.proceed position call).closings = world.closings := by
  cases call with
  | enter input =>
    simp only [proceed]
    split
    · rfl
    · cases input with
      | event => simp only; split <;> rfl
      | refresh => rfl
  | queue input => cases input <;> rfl
  | ignore | count | wake => rfl

variable [StatusStore σ] {act : Act σ}

/-- A worker that has ended stays so. -/
theorem Turn.isStopped {allowed : (σ → σ) → Prop} {after : World σ}
    (turn : Turn allowed world after) (stopped : world.IsStopped) : after.IsStopped := by
  cases turn with
  | work move => exact (move.of_stopped stopped).1 ▸ stopped
  | halt => rfl
  | accept | inspect | beside | aside => exact stopped

theorem isStopped_step (stopped : world.IsStopped) : (world.step act).IsStopped :=
  (world.turn_step fun _ _ => trivial : Turn anyEffect world _).isStopped stopped

theorem closings_step (world : World σ) (act : Act σ) :
    (world.step act).closings =
      match act with
      | .shutdown => world.closings ++ [Closing.told]
      | .conclude number => world.closings.modify number (Closing.next world.engine)
      | .drop number => world.closings.modify number Closing.drop
      | _ => world.closings := by
  cases act with
  | proceed position =>
    simp only [step]
    split
    · exact closings_proceed
    · rfl
  | _ => rfl

theorem Handled.step (handled : world.Handled) (act : Act σ) : (world.step act).Handled := by
  have apart (handle : (world.step act).engine.handle = world.engine.handle)
      (same : (world.step act).closings = world.closings) : (world.step act).Handled := by
    refine handled.of_closings handle isStopped_step (fun number => ?_) (fun number waited => ?_)
    · rw [HasHandle, HasHandle, same]
    · rw [same]
      exact id
  cases act with
  | work => exact apart world.engine.move_work.handle_eq rfl
  | halt =>
    refine apart ?_ rfl
    simp only [World.step, Engine.halt]
    split <;> rfl
  | proceed position =>
    cases found : world.calls[position]? with
    | none => exact apart (by simp only [World.step, found]) (by simp only [World.step, found])
    | some call =>
      obtain ⟨_, _, _, _, _, part, _, _⟩ := exists_section found
      refine apart ?_ ?_
      · simp only [World.step, found]
        exact part.handle_eq
      · simp only [World.step, found]
        exact closings_proceed
  | shutdown => exact handled.shutdown
  | conclude number => exact handled.conclude number
  | drop number => exact handled.drop number
  | elapse | call | cancel | inspect | beside => exact apart rfl rfl

end World

end LoopGuard
