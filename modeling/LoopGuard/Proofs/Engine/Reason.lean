import LoopGuard.Proofs.Engine.Rest

/-!
# Why a refresh starts

A refresh starts for inputs that came in since the one before, or because that one
failed (`Log.Justified`). So there are no more refreshes than inputs accepted and
refreshes failed (`Log.Justified.starts_le`).
-/

namespace LoopGuard

namespace Log

variable {log : Log}

/-- Each refresh starts for inputs that came in since the one before, or because
that one failed. -/
def Justified (log : Log) : Prop :=
  ∀ before after : Log, log = before ++ .took :: after → before.waiting = true ∨ before.lapsed = true

theorem Justified.concat {note : Note} (justified : log.Justified)
    (reason : note = .took → log.waiting = true ∨ log.lapsed = true) :
    Justified (log ++ [note]) := by
  intro before after whole
  rcases List.eq_nil_or_concat after with rfl | ⟨after, last, rfl⟩
  · obtain ⟨rfl, took⟩ := List.append_inj' whole rfl
    exact reason (List.singleton_inj.1 took)
  · rw [List.concat_eq_append, ← List.cons_append, ← List.append_assoc] at whole
    exact justified before after (List.append_inj' whole rfl).1

theorem Justified.append {notes : Log} (justified : log.Justified) (fresh : starts notes = 0) :
    Justified (log ++ notes) := by
  induction notes using List.reverseRecOn with
  | nil => simpa using justified
  | append_singleton notes note ih =>
    rw [starts_append, Nat.add_eq_zero_iff] at fresh
    rw [← List.append_assoc]
    refine (ih fresh.1).concat ?_
    rintro rfl
    simp at fresh

theorem Justified.of_concat {note : Note} (justified : Justified (log ++ [note])) :
    log.Justified := fun before after whole =>
  justified before (after ++ [note]) (by simp [whole])

/-- Every refresh uses up an input or a failure. -/
theorem Justified.starts_le (justified : log.Justified) :
    log.starts + log.waiting.toNat + log.lapsed.toNat ≤ log.accepted.length + log.failures := by
  induction log using List.reverseRecOn with
  | nil => exact Nat.le_refl 0
  | append_singleton log note ih =>
    change Log at log
    have before := ih justified.of_concat
    cases note with
    | took =>
      have reason := justified log [] rfl
      have used : 1 ≤ log.waiting.toNat + log.lapsed.toNat := by
        rcases reason with waiting | lapsed
        · simp [waiting]
        · simp [lapsed]
      simp only [starts_append, starts_singleton, waiting_concat, lapsed_concat, accepted_append,
        accepted_singleton, failures_append, failures_singleton, List.append_nil,
        Bool.toNat_false]
      omega
    | accepted input =>
      have one := Bool.toNat_le log.waiting
      simp only [starts_append, starts_singleton, waiting_concat, lapsed_concat, accepted_append,
        accepted_singleton, failures_append, failures_singleton, List.length_append,
        List.length_singleton, Bool.toNat_true]
      omega
    | failed =>
      have one := Bool.toNat_le log.lapsed
      simp only [starts_append, starts_singleton, waiting_concat, lapsed_concat, accepted_append,
        accepted_singleton, failures_append, failures_singleton, List.append_nil,
        Bool.toNat_true]
      omega
    | committed =>
      simp only [starts_append, starts_singleton, waiting_concat, lapsed_concat, accepted_append,
        accepted_singleton, failures_append, failures_singleton, List.append_nil,
        Bool.toNat_false]
      omega
    | made | reviewed => simpa using before

end Log

variable {σ : Type}

namespace Engine

/-- Whether a refresh waits for its delay to end, or is about to start. -/
def isScheduled (engine : Engine σ) : Bool :=
  match engine.activity with
  | .delaying .. | .taking => true
  | _ => false

variable [StatusStore σ] {engine next : Engine σ} {notes : Log}

/-- A refresh that is scheduled has a reason, and so has one that failed. -/
theorem Move.reason (move : Move engine notes next) {log : Log}
    (queued : engine.pending.queued = true → log.waiting = true)
    (scheduled : engine.isScheduled = true → log.waiting = true ∨ log.lapsed = true)
    (failed : engine.activity = .finishing false → log.lapsed = true) :
    (next.isScheduled = true →
        Log.waiting (log ++ notes) = true ∨ Log.lapsed (log ++ notes) = true) ∧
      (next.activity = .finishing false → Log.lapsed (log ++ notes) = true) := by
  cases move with
  | wait => simpa using ⟨scheduled, failed⟩
  | schedule activity waits =>
    simp [isScheduled, delay, queued waits]
  | again activity due =>
    refine ⟨fun _ => ?_, by simp [delay]⟩
    rw [List.append_nil]
    rcases due with waits | rfl
    · exact .inl (queued waits)
    · exact .inr (failed activity)
  | pushBack activity | ready activity =>
    have reason := scheduled (by simp [isScheduled, activity])
    simpa [isScheduled, delay] using reason
  | unread | giveUp => simp [isScheduled, fail]
  | settle => simp [isScheduled, succeed]
  | propose => simp [isScheduled, attempt]
  | woken | park | take | change | commit | pause | retry | rest =>
    simp [isScheduled, Engine.take, enter, Engine.change, succeed, attempt]

end Engine

namespace World

variable [StatusStore σ]

/-- Why a refresh is scheduled, or has failed. -/
structure Reasoned (world : World σ) : Prop where
  justified : world.log.Justified
  scheduled : world.engine.isScheduled = true →
    world.log.waiting = true ∨ world.log.lapsed = true
  failed : world.engine.activity = .finishing false → world.log.lapsed = true

theorem Turn.reasoned {before after : World σ} {allowed : (σ → σ) → Prop}
    (turn : Turn allowed before after) (paced : before.Paced) (reasoned : before.Reasoned) :
    after.Reasoned := by
  obtain ⟨justified, scheduled, failed⟩ := reasoned
  cases turn with
  | work move =>
    have queued (waits : before.engine.pending.queued = true) : before.log.waiting = true :=
      paced.queued ▸ waits
    obtain ⟨scheduled', failed'⟩ := move.reason queued scheduled failed
    refine ⟨?_, scheduled', failed'⟩
    rcases move.steady with ⟨taking, rfl, _⟩ | steady
    · exact justified.concat fun _ => scheduled (by simp [Engine.isScheduled, taking])
    · exact justified.append steady.starts
  | halt => exact ⟨justified, nofun, nofun⟩
  | accept input =>
    refine ⟨justified.concat nofun, fun _ => .inl (by simp), ?_⟩
    rw [Log.lapsed_concat]
    exact failed
  | inspect | beside | aside => exact ⟨justified, scheduled, failed⟩

theorem reasoned_run (settings : Settings) (policy : RetryPolicy) (store : σ) (clock : Nat)
    (acts : List (Act σ)) : ((start settings policy store clock).run acts).Reasoned := by
  refine (run_induction_any (motive := fun world => world.Paced ∧ world.Reasoned) acts
    ⟨paced_start .., ?_, nofun, nofun⟩ ?_).2
  · intro before after whole
    simp [start] at whole
  · exact fun turn both => ⟨turn.paced both.1, turn.reasoned both.1 both.2⟩

end World

end LoopGuard
