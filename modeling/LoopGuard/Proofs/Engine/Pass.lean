import LoopGuard.Proofs.Engine.Reason
import LoopGuard.Proofs.Engine.Statistics
import LoopGuard.Proofs.Store.Commit

/-!
# A refresh as a whole

While a refresh is in progress, time passes, calls go on, and the engine may be told
to shut down. None of this makes a difference to the refresh: it makes its changes,
looks through the records if need be, and commits with all attempts that its policy
allows, just as if it were carried out at once (`World.carried_run`), which writes all of its
statuses or none (`Engine.records_carryOut`). The worker needs nobody to get to the end
of it (`World.exists_finishing`).
-/

namespace LoopGuard

namespace Engine

variable {σ : Type}

/-! ## The rest of a refresh -/

/-- The engine once it has made all these changes of the graph. -/
def changeAll (engine : Engine σ) : List LinkChange → Engine σ
  | [] => engine
  | next :: later => (engine.change next later).changeAll later

section CarryOut

variable [StatusStore σ]

/-- The statuses that a refresh commits once it is done with the graph, and the store
after the records were read for them. -/
def survey (engine : Engine σ) : Except StoreError StatusMap × σ :=
  if engine.reconciled then (.ok engine.desired, engine.store)
  else
    match StatusStore.recorded engine.store with
    | (.ok recorded, store) => (.ok ({ engine with store }.reconcile recorded).desired, store)
    | (.error error, store) => (.error error, store)

/-- The statuses that the refresh in progress commits, or is about to, and the store
that it commits them to. -/
def plan (engine : Engine σ) : Except StoreError StatusMap × σ :=
  match engine.activity with
  | .changing changes => (engine.changeAll changes).survey
  | .committing desired _ _ | .pausing desired _ _ => (.ok desired, engine.store)
  | _ => (.ok ∅, engine.store)

/-- What the refresh in progress comes to when the rest of it is carried out at
once. -/
def carryOut (engine : Engine σ) : Except StoreError WriteReport × σ :=
  match engine.plan with
  | (.error error, store) => (.error error, store)
  | (.ok desired, store) =>
    match engine.activity with
    | .committing _ number _ => (engine.policy.writeFrom desired number store).ending
    | .pausing _ number _ => (engine.policy.writeFrom desired (number + 1) store).ending
    | _ => (engine.policy.write desired store).ending

end CarryOut

/-! ## What a refresh looks at -/

/-- The engines agree on what a refresh looks at. -/
structure Alike (a b : Engine σ) : Prop where
  sound : a.graph.Sound ∧ b.graph.Sound
  table : a.graph.table = b.graph.table
  forced : a.forced = b.forced
  reconciled : a.reconciled = b.reconciled
  store : a.store = b.store

namespace Alike

variable {a b : Engine σ}

theorem changeAll (alike : Alike a b) (changes : List LinkChange) :
    Alike (a.changeAll changes) (b.changeAll changes) := by
  induction changes generalizing a b with
  | nil => exact alike
  | cons next later ih =>
    obtain ⟨⟨sound, sound'⟩, table, forced, reconciled, store⟩ := alike
    refine ih ⟨⟨next.sound_apply sound, next.sound_apply sound'⟩, ?_, ?_, reconciled, store⟩
    · simp only [change, LinkChange.table_apply, table]
    · simp only [change, forced]

theorem desired_eq (alike : Alike a b) : a.desired = b.desired := by
  simp only [desired, LinkGraph.allLinks, LinkGraph.table_spanningForest,
    LinkGraph.spanningForest_fst alike.sound.1, LinkGraph.spanningForest_fst alike.sound.2,
    alike.table, alike.forced]

variable [StatusStore σ]

theorem survey_eq (alike : Alike a b) : a.survey = b.survey := by
  have same := alike.desired_eq
  obtain ⟨sound, table, forced, reconciled, store⟩ := alike
  unfold survey
  rw [reconciled, same, store]
  split
  · rfl
  · split
    next recorded later _ =>
      have read : Alike ({ a with store := later }.reconcile recorded)
          ({ b with store := later }.reconcile recorded) := by
        refine ⟨sound, table, ?_, rfl, rfl⟩
        simp only [reconcile, forced, LinkGraph.allLinks, table]
      exact congrArg (fun desired => (Except.ok desired, later)) read.desired_eq
    next => rfl

theorem plan_eq (alike : Alike a b) (activity : a.activity = b.activity) : a.plan = b.plan := by
  unfold plan
  rw [activity, alike.store]
  split
  next changes _ => exact (alike.changeAll changes).survey_eq
  all_goals rfl

theorem carryOut_eq (alike : Alike a b) (activity : a.activity = b.activity)
    (policy : a.policy = b.policy) : a.carryOut = b.carryOut := by
  simp only [carryOut, alike.plan_eq activity, activity, policy]

end Alike

theorem alike_remember {engine : Engine σ} (sound : engine.graph.Sound) :
    Alike engine.remember engine :=
  ⟨⟨sound.spanningForest, sound⟩, LinkGraph.table_spanningForest, rfl, rfl, rfl⟩

/-! ## All or nothing -/

section Lawful

variable [StatusStore σ] [LawfulStore σ]

end Lawful

/-! ## Steps of a refresh -/

section Move

variable [StatusStore σ] {engine next : Engine σ} {notes : Log}

theorem Reading.policy_eq {read : Engine σ} (reading : Reading engine notes read) :
    read.policy = engine.policy := by
  cases reading <;> rfl

/-- What a reading finds is what the rest of the refresh commits. -/
theorem Reading.survey_eq {read : Engine σ} (reading : Reading engine notes read) :
    engine.survey = (.ok read.desired, read.store) := by
  unfold survey
  cases reading with
  | done reconciled => rw [if_pos reconciled]
  | @first recorded unread ok =>
    rw [if_neg (by simp [unread])]
    cases found : StatusStore.recorded engine.store with
    | mk result store =>
      rw [found] at ok
      cases ok
      rfl

theorem survey_of_error {error : StoreError} (unread : engine.reconciled = false)
    (failed : (StatusStore.recorded engine.store).1 = .error error) :
    engine.survey = (.error error, (StatusStore.recorded engine.store).2) := by
  rw [survey, if_neg (by simp [unread])]
  cases found : StatusStore.recorded engine.store with
  | mk result store =>
    rw [found] at failed
    cases failed
    rfl

theorem carryOut_of_committing {desired : StatusMap} {number due : Nat}
    (committing : engine.activity = .committing desired number due) :
    engine.carryOut = (engine.policy.writeFrom desired number engine.store).ending := by
  simp only [carryOut, plan, committing]

theorem Reading.plan_eq {read : Engine σ} (reading : Reading engine notes read)
    (changing : engine.activity = .changing []) : engine.plan = (.ok read.desired, read.store) := by
  simpa only [plan, changing, changeAll] using reading.survey_eq

/-- Once the records are read, all that is left of a refresh is its commit. -/
theorem Reading.carryOut_eq {read : Engine σ} (reading : Reading engine notes read)
    (changing : engine.activity = .changing []) :
    engine.carryOut = (engine.policy.write read.desired read.store).ending := by
  simp only [carryOut, reading.plan_eq changing, changing]

/-- A step of a refresh in progress leaves what the refresh comes to, or ends it with
just that. -/
theorem Move.carryOut (move : Move engine notes next)
    (refreshing : engine.isRefreshing = true) :
    (next.isRefreshing = true ∧ next.carryOut = engine.carryOut ∧
        Log.commits notes = 0 ∧ Log.failures notes = 0) ∨
      ∃ committed, next.activity = .finishing committed ∧
        next.store = engine.carryOut.2 ∧ engine.carryOut.1.isOk = committed ∧
        Log.commits notes = committed.toNat ∧ Log.failures notes = (!committed).toNat := by
  cases move with
  | wait => exact .inl ⟨refreshing, rfl, rfl, rfl⟩
  | change changing =>
    refine .inl ⟨rfl, ?_, rfl, rfl⟩
    simp only [Engine.carryOut, plan, changing, changeAll]
    rfl
  | @unread error changing first failed =>
    have same : engine.carryOut = (.error error, (StatusStore.recorded engine.store).2) := by
      simp only [Engine.carryOut, plan, changing, changeAll, survey_of_error first failed]
    exact .inr ⟨false, rfl, by rw [same]; rfl, by rw [same]; rfl, rfl, rfl⟩
  | @settle read notes changing reading nothing =>
    have same : engine.carryOut = (.ok {}, read.store) := by
      rw [reading.carryOut_eq changing, nothing]
      rfl
    obtain ⟨_, commits, failures⟩ := reading.stats_eq
    exact .inr ⟨true, rfl, by rw [same]; rfl, by rw [same]; rfl, by simp [commits],
      by simp [failures]⟩
  | @propose read notes changing reading something =>
    obtain ⟨_, commits, failures⟩ := reading.stats_eq
    refine .inl ⟨rfl, ?_, commits, failures⟩
    rw [reading.carryOut_eq changing, RetryPolicy.write,
      if_neg fun empty => something (Std.ExtTreeMap.isEmpty_iff.1 empty), ← reading.policy_eq]
    rfl
  | @commit desired number due outcome committing elapsed ok =>
    have same : engine.carryOut = _ := (carryOut_of_committing committing).trans
      (RetryPolicy.ending_writeFrom_of_ok ok)
    exact .inr ⟨true, rfl, by rw [same]; rfl, by rw [same]; rfl, rfl, rfl⟩
  | pause committing elapsed failed again =>
    refine .inl ⟨rfl, ?_, rfl, rfl⟩
    rw [carryOut_of_committing committing, RetryPolicy.ending_writeFrom_of_retries failed again]
    rfl
  | giveUp committing elapsed failed final =>
    have same : engine.carryOut = _ := (carryOut_of_committing committing).trans
      (RetryPolicy.ending_writeFrom_of_final failed final)
    exact .inr ⟨false, rfl, by rw [same]; rfl, by rw [same]; rfl, rfl, rfl⟩
  | retry pausing elapsed =>
    refine .inl ⟨rfl, ?_, rfl, rfl⟩
    simp only [Engine.carryOut, plan, pausing]
    rfl
  | woken activity | park activity | schedule activity | pushBack activity | ready activity
  | take activity | again activity | rest activity =>
    simp [isRefreshing, activity] at refreshing

/-- Between refreshes the worker leaves the store alone. -/
theorem Move.store_eq (move : Move engine notes next) (resting : engine.isRefreshing = false) :
    next.store = engine.store := by
  cases move with
  | settle activity | propose activity | unread activity | commit activity | pause activity
  | giveUp activity =>
    simp [isRefreshing, activity] at resting
  | _ => rfl

end Move

end Engine

namespace World

variable {σ : Type} [StatusStore σ] {world : World σ}

/-- Nothing happens to the store beside the engine. -/
def nothingBeside (_ : σ → σ) : Prop := False

theorem Turn.sound {before after : World σ} {allowed : (σ → σ) → Prop}
    (turn : Turn allowed before after) (sound : before.engine.graph.Sound) :
    after.engine.graph.Sound := by
  cases turn with
  | work move => exact move.sound sound
  | inspect => exact sound.spanningForest
  | halt | accept | beside | aside => exact sound

theorem sound_run (settings : Settings) (policy : RetryPolicy) (store : σ) (clock : Nat)
    (acts : List (Act σ)) :
    ((start settings policy store clock).run acts).engine.graph.Sound :=
  run_induction_any (motive := fun world => world.engine.graph.Sound) acts LinkGraph.sound_empty
    Turn.sound

/-- What has become of a refresh: it is still in progress and comes to the same, or it
has ended with just that. -/
structure Carried (first world : World σ) : Prop where
  sound : world.engine.graph.Sound
  starts : first.log.starts ≤ world.log.starts
  carried : world.log.starts = first.log.starts →
    (world.engine.isRefreshing = true ∧ world.engine.carryOut = first.engine.carryOut ∧
        world.log.commits = first.log.commits ∧ world.log.failures = first.log.failures) ∨
      (world.engine.isRefreshing = false ∧ world.engine.store = first.engine.carryOut.2 ∧
        world.log.commits = first.log.commits + first.engine.carryOut.1.isOk.toNat ∧
        world.log.failures = first.log.failures + (!first.engine.carryOut.1.isOk).toNat)

theorem Turn.carried {first before after : World σ} (turn : Turn nothingBeside before after)
    (carried : first.Carried before) : first.Carried after := by
  obtain ⟨sound, starts, carried⟩ := carried
  refine ⟨turn.sound sound, Nat.le_trans starts turn.handed.2.1, fun same => ?_⟩
  have same' : before.log.starts = first.log.starts := by
    have more := turn.handed.2.1
    omega
  rcases carried same' with ⟨refreshing, comes, commits, failures⟩ |
      ⟨resting, store, commits, failures⟩
  · cases turn with
    | work move =>
      rcases move.carryOut refreshing with ⟨still, comes', none, none'⟩ |
          ⟨committed, finishing, store, ok, one, one'⟩
      · refine .inl ⟨still, comes'.trans comes, ?_, ?_⟩
        · rw [Log.commits_append, none, commits, Nat.add_zero]
        · rw [Log.failures_append, none', failures, Nat.add_zero]
      · rw [comes] at store ok
        refine .inr ⟨by simp [Engine.isRefreshing, finishing], store, ?_, ?_⟩
        · rw [Log.commits_append, one, commits, ok]
        · rw [Log.failures_append, one', failures, ok]
    | halt can => simp [Engine.isRefreshing_of_canHalt can] at refreshing
    | accept input calls =>
      have alike : Engine.Alike (before.engine.receive input) before.engine :=
        ⟨⟨sound, sound⟩, rfl, rfl, rfl, rfl⟩
      refine .inl ⟨refreshing, (alike.carryOut_eq rfl rfl).trans comes, ?_, ?_⟩
      · simpa using commits
      · simpa using failures
    | inspect =>
      have alike := Engine.alike_remember sound
      exact .inl ⟨refreshing, (alike.carryOut_eq rfl rfl).trans comes, commits, failures⟩
    | beside may => exact may.elim
    | aside clock permit cancelled handle stats =>
      have alike : Engine.Alike { before.engine with clock, permit, cancelled, handle, stats }
          before.engine := ⟨⟨sound, sound⟩, rfl, rfl, rfl, rfl⟩
      exact .inl ⟨refreshing, (alike.carryOut_eq rfl rfl).trans comes, commits, failures⟩
  · cases turn with
    | @work notes engine move =>
      obtain ⟨_, _, _, _, passes⟩ := move.counted
      rw [Log.starts_append] at same
      rw [resting, Bool.toNat_false] at passes
      have still : engine.isRefreshing = false := Bool.toNat_eq_zero.1 (by omega)
      refine .inr ⟨still, (move.store_eq resting).trans store, ?_, ?_⟩
      · rw [Log.commits_append]
        omega
      · rw [Log.failures_append]
        omega
    | halt can => exact .inr ⟨rfl, store, commits, failures⟩
    | accept => exact .inr ⟨resting, store, by simpa using commits, by simpa using failures⟩
    | inspect | aside => exact .inr ⟨resting, store, commits, failures⟩
    | beside may => exact may.elim

theorem carried_run {acts : List (Act σ)} (alone : ∀ effect, Act.beside effect ∉ acts)
    (sound : world.engine.graph.Sound) (refreshing : world.engine.isRefreshing = true) :
    world.Carried (world.run acts) :=
  run_induction (motive := world.Carried) alone
    ⟨sound, Nat.le_refl _, fun _ => .inl ⟨refreshing, rfl, rfl, rfl⟩⟩ Turn.carried

end World

/-! ## The worker gets to the end by itself -/

/-- Whether this is an act of the worker, or the clock goes on. -/
def Act.isUnaided {σ : Type} : Act σ → Bool
  | .work | .halt | .elapse _ => true
  | .call _ | .proceed _ | .shutdown | .conclude _ | .drop _ | .cancel | .inspect
  | .beside _ => false

namespace Engine

variable {σ : Type} [StatusStore σ] {engine : Engine σ}

theorem starts_workNotes (apart : engine.activity ≠ .taking) :
    Log.starts engine.workNotes = 0 := by
  rcases engine.move_work.steady with ⟨taking, _⟩ | steady
  · exact absurd taking apart
  · exact steady.starts

theorem resolve_ends (engine : Engine σ) :
    (∃ committed, engine.resolve.activity = .finishing committed) ∨
      ∃ desired due, engine.resolve.activity = .committing desired 1 due := by
  by_cases nothing : engine.desired = ∅
  · rw [resolve_of_eq_empty nothing]
    exact .inl ⟨true, rfl⟩
  · rw [resolve_of_ne_empty nothing]
    exact .inr ⟨_, _, rfl⟩

theorem review_ends (engine : Engine σ) :
    (∃ committed, engine.review.activity = .finishing committed) ∨
      ∃ desired due, engine.review.activity = .committing desired 1 due := by
  unfold review
  split
  · exact engine.resolve_ends
  · split
    · exact resolve_ends _
    · exact .inl ⟨false, rfl⟩

/-- An attempt ends the refresh, or there are further ones to come. -/
theorem commit_ends (engine : Engine σ) (desired : StatusMap) (number : Nat) :
    (∃ committed, (engine.commit desired number).activity = .finishing committed) ∨
      (number < engine.policy.limit ∧ (engine.commit desired number).policy = engine.policy ∧
        ∃ due, (engine.commit desired number).activity = .pausing desired number due) := by
  unfold commit
  split
  · exact .inl ⟨true, rfl⟩
  · split
    next again =>
      rw [RetryPolicy.retries, Bool.and_eq_true, decide_eq_true_eq] at again
      exact .inr ⟨again.2, rfl, _, rfl⟩
    next => exact .inl ⟨false, rfl⟩

end Engine

namespace World

variable {σ : Type} [StatusStore σ] {world : World σ}

theorem run_append (world : World σ) (first second : List (Act σ)) :
    world.run (first ++ second) = (world.run first).run second :=
  List.foldl_append

/-- The worker can get to such a world without anybody else. -/
def Reaches (world : World σ) (goal : World σ → Prop) : Prop :=
  ∃ acts : List (Act σ), (∀ act ∈ acts, act.isUnaided = true) ∧ goal (world.run acts)

section Reaches

variable {goal : World σ → Prop}

theorem Reaches.here (here : goal world) : world.Reaches goal := ⟨[], nofun, here⟩

theorem Reaches.of_step (act : Act σ) (unaided : act.isUnaided = true)
    (rest : (world.step act).Reaches goal) : world.Reaches goal := by
  obtain ⟨acts, unaided', reached⟩ := rest
  exact ⟨act :: acts, by simpa [unaided] using unaided', reached⟩

theorem Reaches.of_run (acts : List (Act σ)) (unaided : ∀ act ∈ acts, act.isUnaided = true)
    (rest : (world.run acts).Reaches goal) : world.Reaches goal := by
  obtain ⟨acts', unaided', reached⟩ := rest
  refine ⟨acts ++ acts', fun act mem => ?_, by rwa [run_append]⟩
  exact (List.mem_append.1 mem).elim (unaided act) (unaided' act)

end Reaches

theorem starts_step_work (apart : world.engine.activity ≠ .taking) :
    (world.step .work).log.starts = world.log.starts := by
  simp [step, Engine.starts_workNotes apart]

theorem starts_steps {span : Nat} (apart : world.engine.activity ≠ .taking) :
    ((world.step (.elapse span)).step .work).log.starts = world.log.starts :=
  starts_step_work apart

/-- The worker can get to the end of the refresh in progress, the last of so many. -/
def CanFinish (starts : Nat) (world : World σ) : Prop :=
  world.Reaches fun after =>
    after.log.starts = starts ∧ ∃ committed, after.engine.activity = .finishing committed

/-- Once its time has come, an attempt is made. -/
theorem exists_attempt {desired : StatusMap} {number due : Nat}
    (committing : world.engine.activity = .committing desired number due) :
    ∃ span, let engine := ((world.step (.elapse span)).step .work).engine
      (∃ committed, engine.activity = .finishing committed) ∨
        (number < world.engine.policy.limit ∧ engine.policy = world.engine.policy ∧
          ∃ due, engine.activity = .pausing desired number due) := by
  refine ⟨due - world.engine.clock, ?_⟩
  simp only [step, Engine.work, committing]
  rw [if_neg (by omega)]
  exact Engine.commit_ends _ desired number

/-- Once the pause is slept out, the next attempt begins. -/
theorem exists_retry {desired : StatusMap} {number due : Nat}
    (pausing : world.engine.activity = .pausing desired number due) :
    ∃ span, let engine := ((world.step (.elapse span)).step .work).engine
      engine.policy = world.engine.policy ∧
        ∃ due, engine.activity = .committing desired (number + 1) due := by
  refine ⟨due - world.engine.clock, ?_⟩
  simp only [step, Engine.work, pausing]
  rw [if_neg (by omega)]
  exact ⟨rfl, _, rfl⟩

/-- Time passes, and the worker goes on. -/
theorem CanFinish.of_steps {starts : Nat} (span : Nat)
    (ends : ((world.step (.elapse span)).step .work).CanFinish starts) : world.CanFinish starts :=
  .of_step (.elapse span) rfl (.of_step .work rfl ends)

/-- A commit ends after as many attempts as its policy has left. -/
theorem ends_of_committing {desired : StatusMap} {number due starts : Nat}
    (committing : world.engine.activity = .committing desired number due)
    (same : world.log.starts = starts) : world.CanFinish starts := by
  induction left : world.engine.policy.limit - number using Nat.strongRecOn
    generalizing world number due with
  | ind left ih =>
    obtain ⟨span, attempt⟩ := exists_attempt committing
    have attempted : ((world.step (.elapse span)).step .work).log.starts = starts :=
      (starts_steps (by simp [committing])).trans same
    refine .of_steps span ?_
    rcases attempt with finishing | ⟨below, policy, due', pausing⟩
    · exact .here ⟨attempted, finishing⟩
    · obtain ⟨pause, policy', due'', again⟩ := exists_retry pausing
      have waited : ((world.step (.elapse span)).step .work).engine.activity ≠ .taking := by
        simp [pausing]
      refine .of_steps pause (ih _ ?_ again ((starts_steps waited).trans attempted) rfl)
      rw [policy', policy]
      omega

theorem ends_of_changing {changes : List LinkChange} {starts : Nat}
    (changing : world.engine.activity = .changing changes)
    (same : world.log.starts = starts) : world.CanFinish starts := by
  induction changes generalizing world with
  | nil =>
    have review : (world.step .work).engine = world.engine.review := by
      simp only [step, Engine.work, changing]
    have reviewed := (starts_step_work (by simp [changing])).trans same
    refine .of_step .work rfl ?_
    rcases world.engine.review_ends with finishing | ⟨desired, due, committing⟩
    · exact .here ⟨reviewed, review ▸ finishing⟩
    · exact ends_of_committing (review ▸ committing) reviewed
  | cons next later ih =>
    refine .of_step .work rfl (ih ?_ ((starts_step_work (by simp [changing])).trans same))
    simp only [step, Engine.work, changing, Engine.change]

/-- Every refresh in progress comes to its end without anybody's help. -/
theorem exists_finishing (refreshing : world.engine.isRefreshing = true) :
    world.CanFinish world.log.starts := by
  cases activity : world.engine.activity with
  | changing changes => exact ends_of_changing activity rfl
  | committing desired number due => exact ends_of_committing activity rfl
  | pausing desired number due =>
    obtain ⟨span, _, due', committing⟩ := exists_retry activity
    exact .of_steps span (ends_of_committing committing (starts_steps (by simp [activity])))
  | checking | parked | delaying | taking | finishing | stopped =>
    simp [Engine.isRefreshing, activity] at refreshing

end World

end LoopGuard
