import LoopGuard.Proofs.Engine.Calls
import LoopGuard.Store.Memory
import Mathlib.Data.List.Perm.Subperm

/-!
# An idle engine has converged

The slot's flags are set by callers and cleared by the worker, and the stage is
written by both a refresh that starts and one that ends. `Engine.Staged` says how
they go together at every moment. It follows that the stage moves only along
`Stage.Follows`, and that a worker that is parked has nothing left to do: no
discard is owed, the last refresh has committed, and whatever waits in the slot
came from calls that are about to wake it. A refresh that fails leads back to
`scheduled` by itself (`World.Recovers`).
-/

namespace LoopGuard

/-- The ways in which the stage moves on. -/
inductive Stage.Follows : Stage → Stage → Prop
  | schedule : Follows .idle .scheduled
  | start : Follows .scheduled .refreshing
  | again : Follows .refreshing .scheduled
  | rest : Follows .refreshing .idle

/-- The stage that an activity belongs to. A worker that has ended leaves the stage
as it was. -/
def Activity.stage? : Activity → Option Stage
  | .checking | .parked => some .idle
  | .delaying .. | .taking => some .scheduled
  | .changing _ | .committing .. | .pausing .. | .finishing _ => some .refreshing
  | .stopped => none

variable {σ : Type}

namespace Engine

/-- How the slot's flags, the worker and the published stage go together. -/
structure Staged (engine : Engine σ) : Prop where
  published : engine.published = engine.pending.stage
  stage : ∀ stage ∈ engine.activity.stage?, engine.pending.stage = stage
  pushed : engine.pending.pushRequested = true →
    engine.pending.stage = .scheduled ∧ engine.pending.queued = true
  forced : engine.isCalm = true → engine.forced = ∅

variable {engine next : Engine σ} {notes : Log}

theorem Staged.published_eq (staged : engine.Staged) {stage : Stage}
    (here : engine.activity.stage? = some stage) : engine.published = stage :=
  staged.published.trans (staged.stage stage here)

/-- Outside the delay no push is asked for. -/
theorem Staged.pushRequested_eq_false (staged : engine.Staged) {stage : Stage}
    (here : engine.activity.stage? = some stage) (apart : stage ≠ .scheduled) :
    engine.pending.pushRequested = false := by
  by_contra pushed
  have scheduled := (staged.pushed (by simpa using pushed)).1
  exact apart ((staged.stage stage here).symm.trans scheduled)

/-- A worker may set out on a delay at rest, and after a refresh. -/
theorem Staged.enter_scheduled (staged : engine.Staged) {stage : Stage}
    (here : engine.activity.stage? = some stage) (follows : stage.Follows .scheduled) :
    ((engine.enter .scheduled).delay 0).Staged ∧ engine.published.Follows .scheduled := by
  have unpushed := staged.pushRequested_eq_false here (by rintro rfl; cases follows)
  refine ⟨⟨rfl, ?_, ?_, ?_⟩, (staged.published_eq here).symm ▸ follows⟩
  · simp [enter, delay, Activity.stage?]
  · simp [enter, delay, unpushed]
  · simp [enter, delay, isCalm]

/-- A step that leaves slot and stage alone keeps an engine staged. -/
theorem Staged.of_pending_eq (staged : engine.Staged) (pending : next.pending = engine.pending)
    (published : next.published = engine.published)
    (stage : next.activity.stage? = engine.activity.stage?)
    (forced : next.isCalm = true → next.forced = ∅ ∨
      (engine.isCalm = true ∧ next.forced = engine.forced)) :
    next.Staged := by
  refine ⟨?_, ?_, ?_, fun calm => ?_⟩
  · rw [published, pending, staged.published]
  · rw [stage, pending]
    exact staged.stage
  · rw [pending]
    exact staged.pushed
  · rcases forced calm with none | ⟨before, same⟩
    · exact none
    · rw [same, staged.forced before]

variable [StatusStore σ]

/-- A step of the worker keeps an engine staged, and moves the stage on if it moves
it at all. -/
theorem Move.staged (move : Move engine notes next) (staged : engine.Staged) :
    next.Staged ∧
      (next.published = engine.published ∨ engine.published.Follows next.published) := by
  cases move with
  | wait => exact ⟨staged, .inl rfl⟩
  | woken activity | park activity | ready activity | change activity | unread activity
  | commit activity | pause activity | giveUp activity | retry activity =>
    refine ⟨staged.of_pending_eq rfl rfl ?_ ?_, .inl rfl⟩
    · simp [activity, Activity.stage?, Engine.change, fail, succeed, attempt]
    · simp [activity, isCalm, Engine.change, fail, succeed, attempt]
  | settle activity reading | propose activity reading =>
    have same := reading.pending_eq.1
    refine ⟨staged.of_pending_eq same ?_ ?_ ?_, .inl ?_⟩
    · cases reading <;> rfl
    · simp [activity, Activity.stage?, succeed, attempt]
    · simp [activity, isCalm, succeed, attempt]
    · cases reading <;> rfl
  | schedule activity =>
    have here : engine.activity.stage? = some .idle := by rw [activity]; rfl
    exact (staged.enter_scheduled here .schedule).imp_right .inr
  | again activity =>
    have here : engine.activity.stage? = some .refreshing := by rw [activity]; rfl
    exact (staged.enter_scheduled here .again).imp_right .inr
  | pushBack activity =>
    have here : engine.activity.stage? = some .scheduled := by rw [activity]; rfl
    refine ⟨⟨staged.published, ?_, ?_, ?_⟩, .inl rfl⟩
    · simpa [delay, Activity.stage?] using staged.stage .scheduled here
    · simp [delay]
    · simp [delay, isCalm]
  | take activity =>
    have here : engine.activity.stage? = some .scheduled := by rw [activity]; rfl
    refine ⟨⟨rfl, ?_, ?_, ?_⟩, .inr ?_⟩
    · simp [Engine.take, enter, Activity.stage?]
    · simp [Engine.take, enter, Pending.taken]
    · simp [Engine.take, enter, isCalm]
    · rw [staged.published_eq here]
      exact .start
  | rest activity =>
    have here : engine.activity.stage? = some .refreshing := by rw [activity]; rfl
    have unpushed := staged.pushRequested_eq_false here (by decide)
    refine ⟨⟨rfl, ?_, ?_, fun _ => ?_⟩, .inr ?_⟩
    · simp [enter, Activity.stage?]
    · simp [enter, unpushed]
    · exact staged.forced (by simp [isCalm, activity])
    · rw [staged.published_eq here]
      exact .rest

theorem Reading.lapsed_eq {read : Engine σ} (reading : Reading engine notes read) (log : Log) :
    Log.lapsed (log ++ notes) = log.lapsed := by
  cases reading <;> simp

/-- A refresh that fails is scheduled anew, and stays so until it starts. -/
theorem Move.lapsed (move : Move engine notes next) (staged : engine.Staged) {log : Log}
    (lapsed : log.lapsed = true →
      engine.activity = .finishing false ∨ engine.pending.stage = .scheduled) :
    Log.lapsed (log ++ notes) = true →
      next.activity = .finishing false ∨ next.pending.stage = .scheduled := by
  cases move with
  | wait => simpa using lapsed
  | take | commit => simp
  | settle => simp [← List.append_assoc]
  | unread | giveUp => exact fun _ => .inl rfl
  | schedule | again => exact fun _ => .inr rfl
  | propose activity reading =>
    rw [reading.lapsed_eq]
    refine fun failed => .inr ?_
    exact reading.pending_eq.1 ▸ (lapsed failed).resolve_left (by simp [activity])
  | rest activity =>
    rw [List.append_nil]
    intro failed
    have scheduled := (lapsed failed).resolve_left (by simp [activity])
    rw [staged.stage .refreshing (by rw [activity]; rfl)] at scheduled
    cases scheduled
  | woken activity | park activity | pushBack activity | ready activity | change activity
  | pause activity | retry activity =>
    intro failed
    have failed' : log.lapsed = true := by simpa using failed
    exact .inr ((lapsed failed').resolve_left (by simp [activity]))

/-- A refresh that failed starts again once its delay is over. -/
theorem restarts (staged : engine.Staged) (failed : engine.activity = .finishing false) :
    engine.work.published = .scheduled ∧
      { engine.work with
        clock := engine.work.clock + engine.settings.refreshDelay }.work.work.published =
          .refreshing := by
  have refreshing : engine.activity.stage? = some .refreshing := by rw [failed]; rfl
  have unpushed := staged.pushRequested_eq_false refreshing (by decide)
  simp [work, failed, finish, delay, enter, endDelay, unpushed, Engine.take]

end Engine

namespace World

variable [StatusStore σ] {before after : World σ} {allowed : (σ → σ) → Prop}

theorem Turn.staged (turn : Turn allowed before after) (staged : before.engine.Staged) :
    after.engine.Staged ∧ (after.engine.published = before.engine.published ∨
      before.engine.published.Follows after.engine.published) := by
  cases turn with
  | work move => exact move.staged staged
  | halt can => exact ⟨⟨staged.published, nofun, staged.pushed, nofun⟩, .inl rfl⟩
  | accept input calls =>
    refine ⟨⟨staged.published, staged.stage, ?_, staged.forced⟩, .inl rfl⟩
    intro pushed
    simp only [Engine.receive, Pending.markQueued, Bool.or_eq_true, decide_eq_true_eq] at pushed ⊢
    exact ⟨pushed.elim (fun before => (staged.pushed before).1) id, trivial⟩
  | inspect | beside | aside =>
    exact ⟨staged.of_pending_eq rfl rfl rfl fun calm => .inr ⟨calm, rfl⟩, .inl rfl⟩

/-- Worker, slot and stage agree with what happened. -/
structure Aligned (world : World σ) : Prop where
  staged : world.engine.Staged
  changes : world.engine.pending.changes =
    Input.allChanges world.engine.settings.hostMarker world.log.unread
  lapsed : world.log.lapsed = true →
    world.engine.activity = .finishing false ∨ world.engine.pending.stage = .scheduled

omit [StatusStore σ] in
theorem aligned_start (settings : Settings) (policy : RetryPolicy) (store : σ) (clock : Nat) :
    (start settings policy store clock).Aligned := by
  refine ⟨⟨rfl, fun stage idle => ?_, nofun, fun _ => rfl⟩, rfl, nofun⟩
  exact Option.some.inj idle

theorem Turn.aligned (turn : Turn allowed before after) (aligned : before.Aligned) :
    after.Aligned := by
  obtain ⟨staged, changes, lapsed⟩ := aligned
  refine ⟨(turn.staged staged).1, ?_, ?_⟩
  · cases turn with
    | work move =>
      rcases move.steady with ⟨_, rfl, rfl⟩ | steady
      · simp [Engine.take, Engine.enter, Pending.taken, Input.allChanges]
      · rw [steady.changes, move.settings_eq, Log.unread_append steady.starts, move.accepted_eq,
          List.append_nil]
        exact changes
    | accept input calls =>
      simp [Engine.receive, Pending.markQueued, changes, Input.allChanges]
    | halt | inspect | beside | aside => exact changes
  · cases turn with
    | work move => exact move.lapsed staged lapsed
    | halt can =>
      refine fun failed => .inr ((lapsed failed).resolve_left fun finishing => ?_)
      simp [Engine.canHalt, finishing] at can
    | accept =>
      rw [Log.lapsed_concat]
      exact lapsed
    | inspect | beside | aside => exact lapsed

theorem aligned_run (settings : Settings) (policy : RetryPolicy) (store : σ) (clock : Nat)
    (acts : List (Act σ)) : ((start settings policy store clock).run acts).Aligned :=
  run_induction_any acts (aligned_start settings policy store clock) Turn.aligned

/-- Nothing is left to do for a worker that waits, but what calls are about to wake
it for. -/
structure Converged (world : World σ) : Prop where
  published : world.engine.published = .idle
  unpushed : world.engine.pending.pushRequested = false
  forced : world.engine.forced = ∅
  settled : world.log.starts = 0 ∨ world.log.settled = true
  changes : world.engine.pending.changes =
    Input.allChanges world.engine.settings.hostMarker world.log.unread
  queued : world.engine.pending.queued = true ↔ world.log.unread ≠ []
  /-- Unless the worker was woken by now, calls are about to wake it for all that waits. -/
  attended : world.engine.permit = false → world.log.unread.Subperm (Call.waking world.calls)
  nothing : world.engine.permit = false → Call.waking world.calls = [] → world.engine.pending = {}

omit [StatusStore σ] in
theorem Aligned.converged {world : World σ} (aligned : world.Aligned) (paced : world.Paced)
    (attended : world.Attended) (parked : world.engine.activity = .parked) : world.Converged := by
  have calm : world.engine.isCalm = true := by simp [Engine.isCalm, parked]
  have idle : world.engine.activity.stage? = some .idle := by rw [parked]; rfl
  have unpushed := aligned.staged.pushRequested_eq_false idle (by decide)
  have queued : world.engine.pending.queued = true ↔ world.log.unread ≠ [] :=
    paced.queued ▸ Log.waiting_iff
  have owed (asleep : world.engine.permit = false) :
      world.log.unread.Subperm (Call.waking world.calls) :=
    List.subperm_iff_count.2 (attended parked asleep)
  refine ⟨aligned.staged.published_eq idle, unpushed, aligned.staged.forced calm,
    (paced.calm calm).symm, aligned.changes, queued, owed, fun asleep none => ?_⟩
  have unread : world.log.unread = [] := List.subperm_nil.1 (none ▸ owed asleep)
  have stage := aligned.staged.stage .idle idle
  have empty : world.engine.pending.queued = false := by simpa [unread] using queued
  have changes : world.engine.pending.changes = [] := by
    rw [aligned.changes, unread]
    rfl
  calc world.engine.pending
    _ = ⟨world.engine.pending.changes, world.engine.pending.queued,
          world.engine.pending.pushRequested, world.engine.pending.stage⟩ := rfl
    _ = {} := by rw [changes, empty, unpushed, stage]

/-- At every moment the slot's flags, the worker and the published stage go
together, and the stage moves only along `Stage.Follows`. A worker that is parked
has nothing left to do but what calls are about to wake it for: no discard is owed
and the last refresh has committed. After a refresh that failed the next one is
scheduled, and starts when its delay is over, without any input. -/
theorem idle_means_converged (settings : Settings) (policy : RetryPolicy) (store : σ)
    (clock : Nat) (acts : List (Act σ)) :
    let world := (start settings policy store clock).run acts
    let pending := world.engine.pending
    (pending.changes ≠ [] → pending.queued = true) ∧
      (pending.pushRequested = true → pending.stage = .scheduled ∧ pending.queued = true) ∧
      world.engine.published = pending.stage ∧
      (∀ act, (world.step act).engine.published = world.engine.published ∨
        world.engine.published.Follows (world.step act).engine.published) ∧
      (world.engine.activity = .parked → world.Converged) ∧
      (world.log.lapsed = true →
        world.engine.activity = .finishing false ∨ world.engine.published = .scheduled) ∧
      (world.engine.activity = .finishing false →
        (world.step .work).engine.published = .scheduled ∧
        (world.run [.work, .elapse settings.refreshDelay, .work, .work]).engine.published =
          .refreshing) := by
  intro world pending
  have aligned : world.Aligned := aligned_run settings policy store clock acts
  have paced : world.Paced := paced_run settings policy store clock acts
  have attended : world.Attended := attended_run settings policy store clock acts
  have settled : world.engine.settings = settings := settings_run _ acts
  refine ⟨fun some => ?_, aligned.staged.pushed, aligned.staged.published, fun act => ?_,
    aligned.converged paced attended, fun lapsed => ?_, fun failed => ?_⟩
  · by_contra empty
    exact some (paced.changes (by simpa using empty))
  · have turn : Turn anyEffect world (world.step act) := world.turn_step fun _ _ => trivial
    exact (turn.staged aligned.staged).2
  · rw [aligned.staged.published]
    exact aligned.lapsed lapsed
  · have again := Engine.restarts aligned.staged failed
    rw [settled] at again
    exact again

/-- The chain comes up, and the worker takes this many steps. -/
def chainUp (steps : Nat) : List (Act MemoryStore) :=
  Act.whole (.event chain) ++ List.replicate steps .work

/-- Over a store that fails once, the first refresh of the chain fails. The second
comes by itself, and after it the worker waits with an empty slot. -/
theorem failed_chain_settles_by_itself :
    let world := fun steps =>
      (start ⟨0, 0, ""⟩ ⟨1, 0⟩ (MemoryStore.empty.failNext 1 (.conflict "")) 0).run (chainUp steps)
    (world 6).engine.activity = .finishing false ∧
      ((world 6).step .work).engine.published = .scheduled ∧
      ((world 6).run [.work, .elapse 0, .work, .work]).engine.published = .refreshing ∧
      (world 15).engine.activity = .parked ∧ (world 15).log.starts = 2 ∧
      (world 15).Converged ∧ (world 15).engine.pending = {} := by
  intro world
  have failed : (world 6).engine.activity = .finishing false := by rfl
  have parked : (world 15).engine.activity = .parked :=
    Engine.parked_of_isIdle (by decide +kernel)
  have twice : (world 15).log.starts = 2 := by decide +kernel
  obtain ⟨_, _, _, _, _, _, again⟩ := idle_means_converged ⟨0, 0, ""⟩ ⟨1, 0⟩
    (MemoryStore.empty.failNext 1 (.conflict "")) 0 (chainUp 6)
  obtain ⟨_, _, _, _, converged, _⟩ := idle_means_converged ⟨0, 0, ""⟩ ⟨1, 0⟩
    (MemoryStore.empty.failNext 1 (.conflict "")) 0 (chainUp 15)
  have empty := (converged parked).nothing (by decide +kernel) (by decide +kernel)
  exact ⟨failed, (again failed).1, (again failed).2, parked, twice, converged parked, empty⟩

end World

end LoopGuard
