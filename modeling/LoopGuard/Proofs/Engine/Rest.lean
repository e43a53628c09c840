import LoopGuard.Engine.Clock
import LoopGuard.Proofs.Engine.Queue
import Mathlib.Data.List.Induction

/-!
# A worker at rest

A worker that is parked with nothing queued is through: either nothing ever came
into the slot and no refresh started, or everything that came in was made of
the graph and the last refresh has committed (`World.Rests.through`).
-/

namespace LoopGuard

namespace Log

variable {log notes : Log}

theorem accepted_ne_nil (waiting : log.waiting = true) : log.accepted ≠ [] := by
  induction log using List.reverseRecOn with
  | nil => cases waiting
  | append_singleton log note ih => cases note <;> simp_all

theorem waiting_iff : log.waiting = true ↔ log.unread ≠ [] := by
  induction log using List.reverseRecOn with
  | nil => simp [waiting, unread]
  | append_singleton log note ih => cases note <;> simp_all

/-- As long as no refresh starts, what comes into the slot adds to what waits. -/
theorem unread_append (fresh : starts notes = 0) :
    unread (log ++ notes) = log.unread ++ accepted notes := by
  induction notes using List.reverseRecOn with
  | nil => simp [accepted]
  | append_singleton notes note ih =>
    rw [starts_append, Nat.add_eq_zero_iff] at fresh
    rw [← List.append_assoc, unread_concat, ih fresh.1, accepted_append, accepted_singleton]
    cases note with
    | took => simp at fresh
    | accepted input => exact List.append_assoc ..
    | made | reviewed | committed | failed => simp

theorem accepted_eq_nil (fresh : log.starts = 0) (waiting : log.waiting = false) :
    log.accepted = [] := by
  induction log using List.reverseRecOn with
  | nil => rfl
  | append_singleton log note ih => cases note <;> simp_all

end Log

variable {σ : Type}

namespace Engine

/-- A worker with nothing to do is parked. -/
theorem parked_of_isIdle {engine : Engine σ} (idle : engine.isIdle = true) :
    engine.activity = .parked := by
  unfold isIdle at idle
  cases activity : engine.activity <;> simp_all

/-- No refresh is scheduled or in progress, and none failed last. -/
def isCalm (engine : Engine σ) : Bool :=
  match engine.activity with
  | .checking | .parked | .finishing true => true
  | _ => false

variable [StatusStore σ] {engine next : Engine σ} {notes : Log}

/-- What a step that takes nothing does: the slot stays, the worker becomes calm
only by a commit, and a calm worker sets out only if something is queued. -/
structure Steady (engine : Engine σ) (notes : Log) (next : Engine σ) : Prop where
  queued : next.pending.queued = engine.pending.queued
  changes : next.pending.changes = engine.pending.changes
  starts : Log.starts notes = 0
  waiting : ∀ log : Log, Log.waiting (log ++ notes) = log.waiting
  calm : next.isCalm = true →
    (∀ log : Log, Log.settled (log ++ notes) = true) ∨ (engine.isCalm = true ∧ notes = [])
  calmed : engine.isCalm = true → next.isCalm = true ∨ engine.pending.queued = true
  stopped : engine.activity = .stopped → next.activity = .stopped

theorem Reading.waiting_eq {read : Engine σ} (reading : Reading engine notes read) :
    ∀ log : Log, Log.waiting (log ++ notes) = log.waiting := by
  intro log
  cases reading <;> simp

/-- A step takes the slot or leaves it. -/
theorem Move.steady (move : Move engine notes next) :
    (engine.activity = .taking ∧ notes = [.took] ∧ next = engine.take) ∨
      engine.Steady notes next := by
  cases move with
  | take taking => exact .inl ⟨taking, rfl, rfl⟩
  | wait => exact .inr ⟨rfl, rfl, rfl, by simp, fun calm => .inr ⟨calm, rfl⟩, .inl, id⟩
  | settle activity reading =>
    refine .inr ⟨congrArg _ reading.pending_eq.1, congrArg _ reading.pending_eq.1,
      ?_, ?_, ?_, ?_, ?_⟩
    · simp [reading.notes_eq]
    · simp [← List.append_assoc, reading.waiting_eq]
    · simp [← List.append_assoc]
    · simp [isCalm, activity]
    · simp [activity]
  | propose activity reading =>
    refine .inr ⟨congrArg _ reading.pending_eq.1, congrArg _ reading.pending_eq.1,
      reading.notes_eq.2.2, reading.waiting_eq, ?_, ?_, ?_⟩
    · simp [isCalm, attempt]
    · simp [isCalm, activity]
    · simp [activity]
  | schedule activity queued =>
    refine .inr ⟨rfl, rfl, rfl, by simp, ?_, fun _ => .inr queued, by simp [activity]⟩
    simp [isCalm, delay]
  | again activity due =>
    refine .inr ⟨rfl, rfl, rfl, by simp, by simp [isCalm, delay], ?_, by simp [activity]⟩
    rcases due with queued | rfl
    · exact fun _ => .inr queued
    · simp [isCalm, activity]
  | woken activity | park activity | pushBack activity | ready activity | change activity
  | unread activity | commit activity | pause activity | giveUp activity | retry activity
  | rest activity =>
    refine .inr ⟨rfl, rfl, rfl, by simp, ?_, ?_, by simp [activity]⟩
    · simp [isCalm, activity, delay, fail, succeed, Engine.change, attempt]
    · simp [isCalm, activity]

end Engine

namespace World

variable [StatusStore σ] {before after world : World σ} {allowed : (σ → σ) → Prop}

/-- The worker waits with nothing queued. -/
structure Rests (world : World σ) : Prop where
  parked : world.engine.activity = .parked
  empty : world.engine.pending.queued = false

/-- How slot, worker and log keep pace. -/
structure Paced (world : World σ) : Prop where
  queued : world.engine.pending.queued = world.log.waiting
  changes : world.engine.pending.queued = false → world.engine.pending.changes = []
  calm : world.engine.isCalm = true → world.log.settled = true ∨ world.log.starts = 0
  fresh : world.log.accepted = [] → world.log.starts = 0 ∧
    (world.engine.isCalm = true ∨ world.engine.activity = .stopped)

omit [StatusStore σ] in
theorem paced_start (settings : Settings) (policy : RetryPolicy) (store : σ) (clock : Nat) :
    (start settings policy store clock).Paced :=
  ⟨rfl, fun _ => rfl, fun _ => .inr rfl, fun _ => ⟨rfl, .inl rfl⟩⟩

theorem Turn.paced (turn : Turn allowed before after) (paced : before.Paced) : after.Paced := by
  obtain ⟨queued, changes, calm, fresh⟩ := paced
  cases turn with
  | work move =>
    rcases move.steady with ⟨taking, rfl, rfl⟩ | steady
    · refine ⟨by simp [Engine.take, Engine.enter, Pending.taken], fun _ => rfl, ?_, ?_⟩
      · simp [Engine.isCalm, Engine.take, Engine.enter]
      · intro none
        have idle := (fresh (by simpa using none)).2
        simp [Engine.isCalm, taking] at idle
    · refine ⟨?_, ?_, fun calm' => ?_, fun none => ?_⟩
      · exact steady.queued.trans (queued.trans (steady.waiting _).symm)
      · intro empty
        rw [steady.queued] at empty
        exact steady.changes.trans (changes empty)
      · rcases steady.calm calm' with settled | ⟨before, rfl⟩
        · exact .inl (settled _)
        · simpa using calm before
      · -- with nothing accepted the slot is empty, so a calm worker does not set out
        have none : before.log.accepted = [] := by
          rwa [Log.accepted_append, move.accepted_eq, List.append_nil] at none
        have empty : before.engine.pending.queued = false := by
          rw [queued]
          exact eq_false_of_ne_true fun waiting => Log.accepted_ne_nil waiting none
        obtain ⟨starts, idle⟩ := fresh none
        refine ⟨by simp [starts, steady.starts], idle.imp (fun calm => ?_) steady.stopped⟩
        exact (steady.calmed calm).resolve_right (by simp [empty])
  | halt can =>
    exact ⟨queued, changes, fun calm' => (by cases calm'), fun none => ⟨(fresh none).1, .inr rfl⟩⟩
  | accept input calls =>
    refine ⟨by simp [Engine.receive, Pending.markQueued], ?_, ?_, ?_⟩
    · simp [Engine.receive, Pending.markQueued]
    · simpa [Engine.receive, Engine.isCalm] using calm
    · simp
  | inspect => exact ⟨queued, changes, calm, fresh⟩
  | beside => exact ⟨queued, changes, calm, fresh⟩
  | aside => exact ⟨queued, changes, calm, fresh⟩

theorem paced_run (settings : Settings) (policy : RetryPolicy) (store : σ) (clock : Nat)
    (acts : List (Act σ)) : ((start settings policy store clock).run acts).Paced :=
  run_induction_any acts (paced_start settings policy store clock) Turn.paced

omit [StatusStore σ] in
/-- At rest nothing has come in and no refresh has started, or all that came in
is made of the graph and the last refresh has committed. -/
theorem Rests.through (rests : world.Rests) (paced : world.Paced) (conserved : world.Conserved) :
    world.log.made = Input.allChanges world.engine.settings.hostMarker world.log.accepted ∧
      (world.log.accepted = [] ∧ world.log.starts = 0 ∨
        world.log.accepted ≠ [] ∧ world.log.settled = true) := by
  constructor
  · have order := conserved.order
    simpa [Engine.inHand, rests.parked, paced.changes rests.empty] using order
  · by_cases none : world.log.accepted = []
    · exact .inl ⟨none, (paced.fresh none).1⟩
    · refine .inr ⟨none, (paced.calm (by simp [Engine.isCalm, rests.parked])).resolve_right ?_⟩
      exact fun fresh => none (Log.accepted_eq_nil fresh (paced.queued ▸ rests.empty))

end World

end LoopGuard
