import LoopGuard.Proofs.Engine.Shutdown

/-!
# Runs against the clock

The functions that run an engine against the clock do nothing but let the worker go on,
end, and time pass: whatever they lead to, a world reaches by unaided acts
(`World.reaches_settle`, `World.reaches_runWithin` and what is built from them). Shutting
down in one go is a shutdown call that nothing comes in between
(`World.exists_acts_shutdown`). It gets to the end of the worker as long as the work in
hand fits the number of steps (`Engine.isStopped_shutdown`), and then all that holds at
the return of a call that has waited holds of it (`World.closed_shutdown`).
-/

namespace LoopGuard

variable {σ : Type} [StatusStore σ]

namespace World

variable {world : World σ}

theorem Reaches.trans {middle goal : World σ → Prop} (first : world.Reaches middle)
    (second : ∀ between, middle between → between.Reaches goal) : world.Reaches goal := by
  obtain ⟨acts, unaided, reached⟩ := first
  exact .of_run acts unaided (second _ reached)

/-- Time passes up to a moment that may be over. -/
theorem reaches_clock (world : World σ) (moment : Nat) :
    world.Reaches fun after =>
      after.engine = { world.engine with clock := max world.engine.clock moment } := by
  refine .of_step (.elapse (moment - world.engine.clock)) rfl (.here ?_)
  have clock : world.engine.clock + (moment - world.engine.clock) =
      max world.engine.clock moment := by
    omega
  simp only [step, clock]

theorem reaches_settleWithin (world : World σ) (steps : Nat) :
    world.Reaches fun after => after.engine = world.engine.settleWithin steps := by
  induction steps generalizing world with
  | zero => exact .here rfl
  | succ steps ih =>
    unfold Engine.settleWithin
    split
    · exact .of_step .halt rfl (.here rfl)
    · split
      · exact .here rfl
      · exact .of_step .work rfl (ih (world.step .work))

theorem reaches_settle (world : World σ) :
    world.Reaches fun after => after.engine = world.engine.settle :=
  world.reaches_settleWithin Engine.patience

theorem reaches_runWithin (world : World σ) (steps : Nat) (goOn : Engine σ → Bool)
    (limit : Option Nat) :
    world.Reaches fun after => after.engine = world.engine.runWithin steps goOn limit := by
  induction steps generalizing world with
  | zero => exact .here rfl
  | succ steps ih =>
    unfold Engine.runWithin
    split
    · exact .here rfl
    · split
      · exact .here rfl
      next due _ =>
        split
        · exact .here rfl
        · refine (world.reaches_clock due).trans fun later moved => ?_
          refine later.reaches_settle.trans fun settled same => ?_
          rw [moved] at same
          exact same ▸ ih settled

theorem reaches_advanceTo (world : World σ) (moment : Nat) :
    world.Reaches fun after => after.engine = world.engine.advanceTo moment := by
  refine world.reaches_settle.trans fun settled same => ?_
  refine (settled.reaches_runWithin Engine.patience (fun _ => true) (some moment)).trans
    fun later ran => ?_
  rw [Engine.advanceTo, ← same, ← ran]
  exact later.reaches_clock moment

theorem reaches_elapse (world : World σ) (span : Nat) :
    world.Reaches fun after => after.engine = world.engine.elapse span :=
  world.reaches_advanceTo _

theorem reaches_await (world : World σ) (stage : Stage) (span : Nat) :
    world.Reaches fun after => after.engine = (world.engine.await stage span).2 := by
  refine world.reaches_settle.trans fun settled same => ?_
  refine (settled.reaches_runWithin Engine.patience (fun engine => engine.published ≠ stage)
    (some (world.engine.clock + span))).trans fun later ran => ?_
  simp only [Engine.await, ← same, ← ran]
  split
  · exact .here rfl
  · exact later.reaches_clock _

theorem reaches_quiesce (world : World σ) :
    world.Reaches fun after => after.engine = world.engine.quiesce := by
  refine world.reaches_settle.trans fun settled same => ?_
  rw [Engine.quiesce, ← same]
  exact settled.reaches_runWithin _ _ _

/-- Another writer waits as long as the store lets it, and then writes. -/
theorem exists_acts_applyBeside (world : World σ) (desired : StatusMap) :
    ∃ acts : List (Act σ), (∀ act ∈ acts, act.isUnaided = true) ∧
      (world.engine.applyBeside desired).1 =
        (StatusStore.apply (world.run acts).engine.store desired).1 ∧
      (world.engine.applyBeside desired).2 =
        ((world.run acts).step
          (.beside fun store => (StatusStore.apply store desired).2)).engine := by
  obtain ⟨acts, unaided, same⟩ := world.reaches_elapse (StatusStore.latency world.engine.store)
  refine ⟨acts, unaided, ?_, ?_⟩
  · rw [same]
    rfl
  · simp only [step, same]
    rfl

/-! ## Shutting down in one go -/

/-- The worker and the clock leave the callers alone. -/
theorem callers_run_of_isUnaided (world : World σ) {acts : List (Act σ)}
    (unaided : ∀ act ∈ acts, act.isUnaided = true) :
    (world.run acts).closings = world.closings ∧ (world.run acts).calls = world.calls ∧
      (world.run acts).answers = world.answers := by
  induction acts generalizing world with
  | nil => exact ⟨rfl, rfl, rfl⟩
  | cons act rest ih =>
    have first : act.isUnaided = true := unaided act List.mem_cons_self
    have rest' : ∀ act ∈ rest, act.isUnaided = true := fun act mem =>
      unaided act (List.mem_cons_of_mem _ mem)
    have same : (world.run (act :: rest)).closings = (world.step act).closings ∧
        (world.run (act :: rest)).calls = (world.step act).calls ∧
        (world.run (act :: rest)).answers = (world.step act).answers := ih (world.step act) rest'
    cases act with
    | work | halt | elapse => exact same
    | _ => cases first

omit [StatusStore σ] in
/-- The last call that was begun goes on. -/
theorem conclude_last {calls : List Closing} {last : Closing}
    (closings : world.closings = calls ++ [last]) :
    (world.conclude calls.length).closings = calls ++ [last.next world.engine] ∧
      (world.conclude calls.length).engine =
        { world.engine with handle := world.engine.handle && last ≠ .told } := by
  constructor
  · simp [conclude, closings, List.modify_eq_take_cons_drop]
  · simp [conclude, closings]

/-- A shutdown call begins, and takes the handle of the worker if it is there. -/
theorem run_begin_shutdown (world : World σ) :
    let begun := world.run [.shutdown, .conclude world.closings.length]
    begun.engine = world.engine.cancel.takeHandle ∧
      begun.closings = world.closings ++ [Closing.told.next world.engine] ∧ begun.calls = world.calls ∧
      begun.answers = world.answers := by
  have told : (world.step .shutdown).closings = world.closings ++ [.told] :=
    world.closings_step .shutdown
  obtain ⟨closings, engine⟩ := conclude_last told
  refine ⟨engine.trans ?_, closings, rfl, rfl⟩
  simp [step, Engine.takeHandle]

/-- Shutting down in one go is a shutdown call, between whose sections nothing comes but
what the worker does by itself. The call has waited for the worker if it found the handle,
unless the worker takes too many steps. -/
theorem exists_acts_shutdown (world : World σ) :
    ∃ acts : List (Act σ), (∀ act ∈ acts, act.isUnaided = true) ∧
      let number := world.closings.length
      let after := world.run ([.shutdown, .conclude number] ++ (acts ++ [.conclude number]))
      after.engine = world.engine.shutdown ∧ after.calls = world.calls ∧
        after.answers = world.answers ∧
        (world.engine.handle = false → after.closings = world.closings ++ [.returned false]) ∧
        (world.engine.handle = true → world.engine.shutdown.isStopped = true →
          after.closings = world.closings ++ [.returned true]) := by
  obtain ⟨engine, closings, calls, answers⟩ := run_begin_shutdown world
  generalize begun : world.run [.shutdown, .conclude world.closings.length] = first
    at engine closings calls answers
  -- the worker is left alone until the last section of the call
  obtain ⟨acts, unaided, same⟩ : first.Reaches fun after =>
      after.engine = world.engine.shutdown := by
    simp only [Engine.shutdown, ← engine]
    split
    · refine first.reaches_settle.trans fun settled same => ?_
      exact same ▸ settled.reaches_runWithin _ _ _
    · exact .here rfl
  obtain ⟨closings', calls', answers'⟩ := first.callers_run_of_isUnaided unaided
  obtain ⟨last, engine'⟩ := conclude_last (closings'.trans closings)
  refine ⟨acts, unaided, ?_⟩
  simp only [run_append, begun]
  refine ⟨engine'.trans ?_, calls'.trans calls, answers'.trans answers, fun gone => ?_,
    fun there stopped => ?_⟩
  · simp [Closing.next_ne_told, same]
  · refine last.trans ?_
    simp [Closing.next, gone]
  · refine last.trans ?_
    simp [Closing.next, there, same, stopped]

end World

namespace Engine

/-- How many steps, pauses not counted, are left for a worker that is to end. -/
def toGo (engine : Engine σ) : Nat :=
  match engine.activity with
  | .stopped => 0
  | .parked | .delaying .. => 1
  | .checking => 2
  | .finishing _ => 3
  | .committing _ number _ => 2 * (engine.policy.limit - number) + 4
  | .pausing _ number _ => 2 * (engine.policy.limit - (number + 1)) + 5
  | .changing changes => changes.length + 2 * engine.policy.limit + 5
  | .taking => engine.pending.changes.length + 2 * engine.policy.limit + 6

variable {engine next : Engine σ} {notes : Log}

theorem Move.policy_eq (move : Move engine notes next) : next.policy = engine.policy := by
  cases move with
  | settle _ reading | propose _ reading => exact reading.policy_eq
  | _ => rfl

theorem policy_work : engine.work.policy = engine.policy := engine.move_work.policy_eq

/-- Every step brings the worker nearer to its end. -/
theorem toGo_work_lt (shut : engine.cancelled = true) (busy : engine.canHalt = false)
    (awake : engine.isWaiting = false) : engine.work.toGo < engine.toGo := by
  have policy := engine.policy_work
  cases activity : engine.activity with
  | checking =>
    simp only [work, activity, check]
    split <;> simp [toGo, activity, enter, delay]
  | parked | delaying => simp [canHalt, shut, activity] at busy
  | taking => simp [work, activity, take, enter, toGo]
  | changing changes =>
    cases changes with
    | nil =>
      have review : engine.work = engine.review := by simp only [work, activity]
      rw [review] at policy ⊢
      rcases engine.review_ends with ⟨committed, ends⟩ | ⟨desired, due, ends⟩
      · simp only [toGo, activity, ends]
        omega
      · simp only [toGo, activity, ends, policy]
        omega
    | cons first rest => simp [work, activity, change, toGo]
  | committing desired number due =>
    have elapsed : due ≤ engine.clock := by simpa [isWaiting, activity, due?] using awake
    have commit : engine.work = engine.commit desired number := by
      simp only [work, activity, if_neg (Nat.not_lt.2 elapsed)]
    rw [commit] at policy ⊢
    rcases engine.commit_ends desired number with ⟨committed, ends⟩ | ⟨below, -, later, ends⟩
    · simp only [toGo, activity, ends]
      omega
    · simp only [toGo, activity, ends, policy]
      omega
  | pausing desired number due =>
    have elapsed : due ≤ engine.clock := by simpa [isWaiting, activity, due?] using awake
    simp only [work, activity, if_neg (Nat.not_lt.2 elapsed), attempt, toGo]
    omega
  | finishing committed =>
    simp only [work, activity, finish]
    split <;> simp [toGo, activity, enter, delay]
  | stopped => simp [isWaiting, activity] at awake

/-- The worker waits for its time, and cannot end at once. -/
def Rests (engine : Engine σ) : Prop := engine.canHalt = false ∧ engine.isWaiting = true

omit [StatusStore σ] in
theorem rests_of_stopped (stopped : engine.activity = .stopped) : engine.Rests := by
  simp [Rests, canHalt, isWaiting, stopped]

omit [StatusStore σ] in
theorem stopped_of_toGo (none : engine.toGo = 0) : engine.activity = .stopped := by
  unfold toGo at none
  cases activity : engine.activity <;> simp_all

/-- A worker that is to end settles, nearer to its end than any that had to go on. -/
theorem settleWithin_rests {steps : Nat} (shut : engine.cancelled = true)
    (enough : engine.toGo ≤ steps) :
    (engine.settleWithin steps).cancelled = true ∧ (engine.settleWithin steps).Rests ∧
      (engine.settleWithin steps).toGo ≤ engine.toGo ∧
      (engine.isWaiting = false → (engine.settleWithin steps).toGo < engine.toGo) := by
  induction steps generalizing engine with
  | zero =>
    have rests : engine.Rests := rests_of_stopped (stopped_of_toGo (Nat.le_zero.1 enough))
    refine ⟨shut, rests, Nat.le_refl _, fun awake => ?_⟩
    rw [rests.2] at awake
    cases awake
  | succ steps ih =>
    unfold settleWithin
    split
    next can =>
      have halted : engine.halt = { engine with activity := .stopped } := if_pos can
      rw [halted]
      have some : 0 < engine.toGo := by
        cases activity : engine.activity <;> simp [toGo, canHalt, activity] at can ⊢
      exact ⟨shut, rests_of_stopped rfl, Nat.zero_le _, fun _ => some⟩
    next busy =>
      split
      next waiting =>
        refine ⟨shut, ⟨by simpa using busy, waiting⟩, Nat.le_refl _, fun awake => ?_⟩
        rw [waiting] at awake
        cases awake
      next awake =>
        have nearer : engine.work.toGo < engine.toGo :=
          toGo_work_lt shut (by simpa using busy) (by simpa using awake)
        have shut' : engine.work.cancelled = true := engine.move_work.cancelled_eq.trans shut
        obtain ⟨told, rests, less, -⟩ := ih shut' (by omega)
        exact ⟨told, rests, by omega, fun _ => by omega⟩

theorem settle_rests (engine : Engine σ) (shut : engine.cancelled = true)
    (few : engine.toGo ≤ patience) :
    engine.settle.cancelled = true ∧ engine.settle.Rests ∧ engine.settle.toGo ≤ engine.toGo ∧
      (engine.isWaiting = false → engine.settle.toGo < engine.toGo) :=
  settleWithin_rests shut few

omit [StatusStore σ] in
/-- A worker that waits although it is to end is in the midst of a commit. -/
theorem Rests.exists_due (rests : engine.Rests) (shut : engine.cancelled = true)
    (running : engine.isStopped = false) :
    ∃ due, engine.due? = some due ∧
      ({ engine with clock := max engine.clock due } : Engine σ).isWaiting = false := by
  obtain ⟨busy, waiting⟩ := rests
  cases activity : engine.activity with
  | committing desired number due | pausing desired number due =>
    refine ⟨due, by simp only [due?, activity], ?_⟩
    simp only [isWaiting, due?, Option.any_some]
    exact decide_eq_false (Nat.not_lt.2 (Nat.le_max_right ..))
  | parked | delaying => simp [canHalt, shut, activity] at busy
  | stopped => simp [isStopped, activity] at running
  | checking | taking | changing | finishing => simp [isWaiting, due?, activity] at waiting

theorem isStopped_runWithin {steps : Nat} (shut : engine.cancelled = true)
    (rests : engine.Rests) (few : engine.toGo ≤ patience) (enough : engine.toGo ≤ steps) :
    (engine.runWithin steps (fun engine => !engine.isStopped) none).isStopped = true := by
  induction steps generalizing engine with
  | zero => exact isStopped_iff.2 (stopped_of_toGo (Nat.le_zero.1 enough))
  | succ steps ih =>
    unfold runWithin
    cases stopped : engine.isStopped with
    | true => simp [stopped]
    | false =>
      obtain ⟨due, next, awake⟩ := rests.exists_due shut stopped
      let later : Engine σ := { engine with clock := max engine.clock due }
      have same : later.toGo = engine.toGo := rfl
      have shut : later.cancelled = true := shut
      obtain ⟨shut', rests', -, nearer⟩ := later.settle_rests shut few
      have nearer : later.settle.toGo < later.toGo := nearer awake
      simp only [next, Option.any_none, Bool.not_false, Bool.not_true, Bool.false_eq_true,
        if_false]
      have ended := ih shut' rests' (by omega) (by omega)
      exact ended

/-- Shutting down gets to the end of the worker, if what is in hand is not too much. -/
theorem isStopped_shutdown (there : engine.handle = true) (few : engine.toGo ≤ patience) :
    engine.shutdown.isStopped = true := by
  obtain ⟨shut, rests, less, -⟩ := engine.cancel.takeHandle.settle_rests rfl few
  have less : engine.cancel.takeHandle.settle.toGo ≤ engine.toGo := less
  simp only [shutdown, if_pos there]
  exact isStopped_runWithin shut rests (by omega) (by omega)

end Engine

namespace World

/-- Shutting down in one go, wherever a run has led to, is a call that returns after the
worker's end: the engine is closed, and silent from then on. -/
theorem closed_shutdown (settings : Settings) (policy : RetryPolicy) (store : σ) (clock : Nat)
    (acts : List (Act σ)) :
    let world := (start settings policy store clock).run acts
    world.engine.handle = true → world.engine.toGo ≤ Engine.patience →
      ∃ alone : List (Act σ), (∀ act ∈ alone, act.isUnaided = true) ∧
        let number := world.closings.length
        let after := world.run ([.shutdown, .conclude number] ++ (alone ++ [.conclude number]))
        after.engine = world.engine.shutdown ∧ after.closings = world.closings ++ [.returned true] ∧
          after.Closed ∧ ∀ more : List (Act σ), after.Silenced more (after.run more) := by
  intro world there few
  have stopped : world.engine.shutdown.isStopped = true := Engine.isStopped_shutdown there few
  obtain ⟨alone, unaided, same, -, -, -, returned⟩ := world.exists_acts_shutdown
  refine ⟨alone, unaided, ?_⟩
  intro number after
  have same : after.engine = world.engine.shutdown := same
  have ended : after.IsStopped := Engine.isStopped_iff.1 (same ▸ stopped)
  have run : after = (start settings policy store clock).run
      (acts ++ ([.shutdown, .conclude number] ++ (alone ++ [.conclude number]))) :=
    (run_append _ acts _).symm
  have sound : after.engine.graph.Sound := run ▸ sound_run settings policy store clock _
  have told : (world.step .shutdown).engine.cancelled = true := rfl
  have shut : after.engine.cancelled = true := cancelled_run told _
  refine ⟨same, returned there stopped, ?_, fun more => silenced_run sound ended shut more⟩
  rw [run] at ended ⊢
  exact closed_run settings policy store clock _ ended

end World

end LoopGuard
