import LoopGuard.Proofs.Engine.World

/-!
# What one step does

`Engine.Move` lists everything that one step of the worker can do, with the
notes that it leaves (`Engine.move_work`), and `World.Turn` everything that one
act can do to a world (`World.turn_step`). Every invariant of a run is proved by
cases on these two; nothing else unfolds the worker.
-/

namespace LoopGuard

namespace Engine

variable {σ : Type}

/-- The graph keeps its forest. -/
def remember (engine : Engine σ) : Engine σ :=
  { engine with graph := engine.graph.spanningForest.2 }

/-- The statuses that a refresh commits. -/
def desired (engine : Engine σ) : StatusMap :=
  (StatusMap.resolve engine.graph.spanningForest.2.allLinks engine.graph.spanningForest.1)
    |>.withForcedDiscards engine.forced

variable [StatusStore σ] {engine : Engine σ} {notes : Log}

/-- The first refresh that gets there reads the records. -/
inductive Reading : Engine σ → Log → Engine σ → Prop
  | done {engine : Engine σ} (reconciled : engine.reconciled = true) : Reading engine [] engine
  | first {engine : Engine σ} {recorded : StatusMap} (unread : engine.reconciled = false)
    (ok : (StatusStore.recorded engine.store).1 = .ok recorded) :
    Reading engine [.reviewed recorded engine.graph.allLinks]
      ({ engine with store := (StatusStore.recorded engine.store).2 }.reconcile recorded)

theorem Reading.notes_eq {read : Engine σ} (reading : Reading engine notes read) :
    Log.accepted notes = [] ∧ Log.made notes = [] ∧ Log.starts notes = 0 := by
  cases reading <;> exact ⟨rfl, rfl, rfl⟩

theorem Reading.graph_eq {read : Engine σ} (reading : Reading engine notes read) :
    read.graph = engine.graph := by
  cases reading <;> rfl

theorem Reading.pending_eq {read : Engine σ} (reading : Reading engine notes read) :
    read.pending = engine.pending ∧ read.settings = engine.settings := by
  cases reading <;> exact ⟨rfl, rfl⟩

theorem Reading.reconciled_eq {read : Engine σ} (reading : Reading engine notes read) :
    read.reconciled = true := by
  cases reading with
  | done reconciled => exact reconciled
  | first => rfl

theorem Reading.activity_eq {read : Engine σ} (reading : Reading engine notes read) :
    read.activity = engine.activity := by
  cases reading <;> rfl

/-- One step of the worker, with its notes. -/
inductive Move : Engine σ → Log → Engine σ → Prop
  | wait {engine : Engine σ} : Move engine [] engine
  | woken {engine : Engine σ} (parked : engine.activity = .parked) :
    Move engine [] { engine with permit := false, activity := .checking }
  | park {engine : Engine σ} (checking : engine.activity = .checking)
    (empty : engine.pending.queued = false) :
    Move engine [] { engine with activity := .parked }
  | schedule {engine : Engine σ} (checking : engine.activity = .checking)
    (queued : engine.pending.queued = true) :
    Move engine [] ((engine.enter .scheduled).delay 0)
  | pushBack {engine : Engine σ} {pushes due : Nat}
    (delaying : engine.activity = .delaying pushes due) (elapsed : due ≤ engine.clock)
    (requested : engine.pending.pushRequested = true)
    (below : pushes < engine.settings.maxReschedules) :
    Move engine []
      (delay
        { engine with
          pending := { engine.pending with pushRequested := false }
          stats := { engine.stats with reschedules := engine.stats.reschedules + 1 } }
        (pushes + 1))
  | ready {engine : Engine σ} {pushes due : Nat}
    (delaying : engine.activity = .delaying pushes due) (elapsed : due ≤ engine.clock)
    (calm : engine.pending.pushRequested = false ∨ engine.settings.maxReschedules ≤ pushes) :
    Move engine [] { engine with activity := .taking }
  | take {engine : Engine σ} (taking : engine.activity = .taking) :
    Move engine [.took] engine.take
  | change {engine : Engine σ} {next : LinkChange} {later : List LinkChange}
    (changing : engine.activity = .changing (next :: later)) :
    Move engine [.made next] (engine.change next later)
  | unread {engine : Engine σ} {error : StoreError} (changing : engine.activity = .changing [])
    (first : engine.reconciled = false)
    (failed : (StatusStore.recorded engine.store).1 = .error error) :
    Move engine [.failed] { engine with store := (StatusStore.recorded engine.store).2 }.fail
  | settle {engine read : Engine σ} {notes : Log} (changing : engine.activity = .changing [])
    (reading : Reading engine notes read) (nothing : read.desired = ∅) :
    Move engine (notes ++ [.committed]) (read.remember.succeed 0)
  | propose {engine read : Engine σ} {notes : Log} (changing : engine.activity = .changing [])
    (reading : Reading engine notes read) (something : read.desired ≠ ∅) :
    Move engine notes (read.remember.attempt read.desired 1)
  | commit {engine : Engine σ} {desired : StatusMap} {number due : Nat} {outcome : ApplyOutcome}
    (committing : engine.activity = .committing desired number due) (elapsed : due ≤ engine.clock)
    (ok : (StatusStore.apply engine.store desired).1 = .ok outcome) :
    Move engine [.committed]
      ({ engine with store := (StatusStore.apply engine.store desired).2 }.succeed outcome.written)
  | pause {engine : Engine σ} {desired : StatusMap} {number due : Nat} {error : StoreError}
    (committing : engine.activity = .committing desired number due) (elapsed : due ≤ engine.clock)
    (failed : (StatusStore.apply engine.store desired).1 = .error error)
    (again : engine.policy.retries number error = true) :
    Move engine []
      { engine with
        store := (StatusStore.apply engine.store desired).2
        activity := .pausing desired number (engine.clock + engine.policy.backoff) }
  | giveUp {engine : Engine σ} {desired : StatusMap} {number due : Nat} {error : StoreError}
    (committing : engine.activity = .committing desired number due) (elapsed : due ≤ engine.clock)
    (failed : (StatusStore.apply engine.store desired).1 = .error error)
    (final : engine.policy.retries number error = false) :
    Move engine [.failed]
      { engine with store := (StatusStore.apply engine.store desired).2 }.fail
  | retry {engine : Engine σ} {desired : StatusMap} {number due : Nat}
    (pausing : engine.activity = .pausing desired number due) (elapsed : due ≤ engine.clock) :
    Move engine [] (engine.attempt desired (number + 1))
  | again {engine : Engine σ} {committed : Bool}
    (finishing : engine.activity = .finishing committed)
    (due : engine.pending.queued = true ∨ committed = false) :
    Move engine [] ((engine.enter .scheduled).delay 0)
  | rest {engine : Engine σ} (finishing : engine.activity = .finishing true)
    (empty : engine.pending.queued = false) :
    Move engine [] { engine.enter .idle with activity := .checking }

/-! ## The worker's moves -/

theorem resolve_of_eq_empty (nothing : engine.desired = ∅) :
    engine.resolve = engine.remember.succeed 0 := by
  have empty : engine.desired.isEmpty = true := Std.ExtTreeMap.isEmpty_iff.2 nothing
  exact if_pos empty

theorem resolve_of_ne_empty (something : engine.desired ≠ ∅) :
    engine.resolve = engine.remember.attempt engine.desired 1 := by
  have full : ¬engine.desired.isEmpty = true := fun empty =>
    something (Std.ExtTreeMap.isEmpty_iff.1 empty)
  exact if_neg full

/-- Once the records are read, the statuses are resolved and committed. -/
theorem Reading.move {read : Engine σ} (changing : engine.activity = .changing [])
    (reading : Reading engine notes read) :
    Move engine (notes ++ read.resolve.ending) read.resolve := by
  by_cases nothing : read.desired = ∅
  · rw [resolve_of_eq_empty nothing]
    exact .settle changing reading nothing
  · rw [resolve_of_ne_empty nothing]
    simpa [ending, attempt] using Move.propose changing reading nothing

theorem move_review (changing : engine.activity = .changing []) :
    Move engine (engine.reading ++ engine.review.ending) engine.review := by
  unfold review Engine.reading
  by_cases reconciled : engine.reconciled = true
  · rw [if_pos reconciled, if_pos reconciled]
    exact Reading.move changing (.done reconciled)
  · rw [if_neg reconciled, if_neg reconciled]
    have unread : engine.reconciled = false := by simpa using reconciled
    cases found : StatusStore.recorded engine.store with
    | mk result store =>
      cases result with
      | ok recorded =>
        have reading : Reading engine _ _ := .first unread (congrArg Prod.fst found)
        rw [found] at reading
        exact Reading.move changing reading
      | error error =>
        have failed := Move.unread changing unread (congrArg Prod.fst found)
        rwa [found] at failed

theorem move_commit {desired : StatusMap} {number due : Nat}
    (committing : engine.activity = .committing desired number due)
    (elapsed : due ≤ engine.clock) :
    Move engine (engine.commit desired number).ending (engine.commit desired number) := by
  unfold commit
  cases applied : StatusStore.apply engine.store desired with
  | mk result store =>
    cases result with
    | ok outcome =>
      have done := Move.commit committing elapsed (congrArg Prod.fst applied)
      rwa [applied] at done
    | error error =>
      by_cases again : engine.policy.retries number error = true
      · have pause := Move.pause committing elapsed (congrArg Prod.fst applied) again
        rw [applied] at pause
        simpa [again, ending] using pause
      · have final : engine.policy.retries number error = false := by simpa using again
        have given := Move.giveUp committing elapsed (congrArg Prod.fst applied) final
        rw [applied] at given
        simpa [final, ending, fail] using given

theorem move_work (engine : Engine σ) : Move engine engine.workNotes engine.work := by
  unfold workNotes
  cases activity : engine.activity with
  | checking =>
    simp only [work, activity, check]
    split
    next queued => exact .schedule activity queued
    next empty => exact .park activity (by simpa using empty)
  | parked =>
    simp only [work, activity]
    split
    · exact .woken activity
    · exact .wait
  | delaying pushes due =>
    simp only [work, activity]
    split
    · exact .wait
    next elapsed =>
      rw [Nat.not_lt] at elapsed
      unfold endDelay
      split
      next push =>
        simp only [Bool.and_eq_true, decide_eq_true_eq] at push
        exact .pushBack activity elapsed push.1 push.2
      next calm =>
        refine .ready activity elapsed ?_
        simp only [Bool.and_eq_true, decide_eq_true_eq, not_and, Nat.not_lt] at calm
        by_cases requested : engine.pending.pushRequested = true
        · exact .inr (calm requested)
        · exact .inl (by simpa using requested)
  | taking =>
    simp only [work, activity]
    exact .take activity
  | changing changes =>
    cases changes with
    | nil =>
      simp only [work, activity]
      exact move_review activity
    | cons next later =>
      simp only [work, activity]
      exact .change activity
  | committing desired number due =>
    simp only [work, activity]
    split
    · simpa [ending, activity] using Move.wait
    next elapsed => exact move_commit activity (Nat.not_lt.1 elapsed)
  | pausing desired number due =>
    simp only [work, activity]
    split
    · exact .wait
    next elapsed => exact .retry activity (Nat.not_lt.1 elapsed)
  | finishing committed =>
    simp only [work, activity, finish]
    split
    next due => exact .again activity (by simpa using due)
    next rest =>
      have both : engine.pending.queued = false ∧ committed = true := by simpa using rest
      obtain ⟨empty, rfl⟩ := both
      exact .rest activity empty
  | stopped =>
    simp only [work, activity]
    exact .wait

end Engine

/-! ## The acts of a world -/

namespace Engine

variable {σ : Type}

/-- The slot takes an input. -/
def receive (engine : Engine σ) (input : Input) : Engine σ :=
  { engine with
    pending := Pending.markQueued
      { engine.pending with
        changes := engine.pending.changes ++ input.changes engine.settings.hostMarker } }

end Engine

namespace World

variable {σ : Type} [StatusStore σ]

/-- One act, when these effects on the store are allowed. Acts that concern
only the clock, the counters and the calls themselves are one case. -/
inductive Turn (allowed : (σ → σ) → Prop) : World σ → World σ → Prop
  | work {world : World σ} {notes : Log} {engine : Engine σ}
    (move : world.engine.Move notes engine) :
    Turn allowed world { world with engine, log := world.log ++ notes }
  | halt {world : World σ} (can : world.engine.canHalt = true) :
    Turn allowed world { world with engine := { world.engine with activity := .stopped } }
  | accept {world : World σ} (input : Input) (calls : List Call) :
    Turn allowed world
      { world with
        engine := world.engine.receive input, calls, log := world.log ++ [.accepted input] }
  | inspect {world : World σ} : Turn allowed world { world with engine := world.engine.remember }
  | beside {world : World σ} {effect : σ → σ} (may : allowed effect) :
    Turn allowed world
      { world with engine := { world.engine with store := effect world.engine.store } }
  | aside {world : World σ} (clock : Nat) (permit cancelled handle : Bool) (stats : Stats)
    (calls : List Call) (closings : List Closing)
    (answers : List (Input × Except GuardError Unit)) :
    Turn allowed world
      { world with
        engine := { world.engine with clock, permit, cancelled, handle, stats }
        calls, closings, answers }

variable {allowed : (σ → σ) → Prop}

theorem turn_proceed (world : World σ) (position : Nat) (call : Call) :
    Turn allowed world (world.proceed position call) := by
  cases call with
  | enter input =>
    simp only [proceed]
    split
    · exact .aside ..
    · cases input with
      | event event =>
        simp only
        split
        · exact .aside ..
        · exact .aside ..
      | refresh => exact .aside ..
  | ignore event => exact .aside ..
  | queue input =>
    cases input with
    | event event => exact .accept (.event event) _
    | refresh =>
      have turn : Turn allowed world _ :=
        .accept .refresh (world.calls.set position (.wake .refresh))
      have receive : world.engine.receive .refresh =
          { world.engine with pending := world.engine.pending.markQueued } := by
        simp [Engine.receive, Input.changes]
      rwa [receive] at turn
  | count event => exact .aside ..
  | wake input => exact .aside ..

theorem turn_step (world : World σ) {act : Act σ}
    (may : ∀ effect, act = .beside effect → allowed effect) :
    Turn allowed world (world.step act) := by
  cases act with
  | work => exact .work world.engine.move_work
  | halt =>
    simp only [step, Engine.halt]
    split
    next can => exact .halt can
    next => exact .aside ..
  | elapse span => exact .aside ..
  | call input => exact .aside ..
  | proceed position =>
    simp only [step]
    split
    · exact turn_proceed ..
    · exact .aside ..
  | shutdown | conclude | drop | cancel => exact .aside ..
  | inspect => exact .inspect
  | beside effect => exact .beside (may effect rfl)

/-- A turn only adds to the log. -/
theorem Turn.exists_log {before after : World σ} (turn : Turn allowed before after) :
    ∃ notes, after.log = before.log ++ notes := by
  cases turn with
  | work | accept => exact ⟨_, rfl⟩
  | halt | inspect | beside | aside => exact ⟨[], (List.append_nil _).symm⟩

/-- What holds at first and is kept by every turn holds after every run. -/
theorem run_induction {motive : World σ → Prop} {world : World σ} {acts : List (Act σ)}
    (may : ∀ effect, Act.beside effect ∈ acts → allowed effect) (first : motive world)
    (kept : ∀ {before after : World σ}, Turn allowed before after → motive before → motive after) :
    motive (world.run acts) := by
  induction acts generalizing world with
  | nil => exact first
  | cons act rest ih =>
    refine ih (fun effect mem => may effect (List.mem_cons_of_mem _ mem)) ?_
    refine kept (world.turn_step fun effect same => may effect ?_) first
    exact same ▸ List.mem_cons_self

def anyEffect (_ : σ → σ) : Prop := True

/-- What every turn keeps, whatever happens to the store. -/
theorem run_induction_any {motive : World σ → Prop} {world : World σ} (acts : List (Act σ))
    (first : motive world)
    (kept : ∀ {before after : World σ},
      Turn anyEffect before after → motive before → motive after) :
    motive (world.run acts) :=
  run_induction (fun _ _ => trivial) first kept

end World

end LoopGuard
