import LoopGuard.Proofs.Status.Records
import LoopGuard.Store.Memory

/-!
# Stores that keep their records

A lawful store has records, and its answers are about them: a reading reports
them all, and an application that succeeds writes the desired statuses and
nothing else. One that fails writes nothing, or it writes everything and the
answer is lost on the way; an aborting store rules the latter out. Which
operations fail, and how, is left open. The store in memory is lawful and
aborting, whatever failures are queued; for records in a keyspace see
`Keyspace.HonestStore`.
-/

namespace LoopGuard

/-- Writing the desired statuses leads from one set of records to another. -/
def StatusMap.Writes (desired before after : StatusMap) : Prop :=
  ∀ port : PortRef, after[port]? = desired[port]?.or before[port]?

/-- A store whose operations are all or nothing. -/
class LawfulStore (σ : Type) [StatusStore σ] where
  records : σ → StatusMap
  /-- Reading changes no record. -/
  records_recorded (store : σ) : records (StatusStore.recorded store).2 = records store
  /-- A reading reports the records. -/
  eq_of_recorded {store : σ} {found : StatusMap} :
    (StatusStore.recorded store).1 = .ok found → found = records store
  /-- An application that succeeds writes the desired statuses. -/
  writes_of_ok {store : σ} {desired : StatusMap} {outcome : ApplyOutcome} :
    (StatusStore.apply store desired).1 = .ok outcome →
    desired.Writes (records store) (records (StatusStore.apply store desired).2)
  /-- An application that fails writes them all or none. -/
  writes_of_error {store : σ} {desired : StatusMap} {error : StoreError} :
    (StatusStore.apply store desired).1 = .error error →
    records (StatusStore.apply store desired).2 = records store ∨
      desired.Writes (records store) (records (StatusStore.apply store desired).2)

export LawfulStore (records)

/-- A store where an application that fails writes nothing. -/
class AbortingStore (σ : Type) [StatusStore σ] [LawfulStore σ] : Prop where
  records_of_error {store : σ} {desired : StatusMap} {error : StoreError} :
    (StatusStore.apply store desired).1 = .error error →
    records (StatusStore.apply store desired).2 = records store

/-- A failure that is met leaves the records in memory alone. -/
theorem MemoryStore.records_apply_of_error {store : MemoryStore} {desired : StatusMap}
    {error : StoreError} (failed : (store.apply desired).1 = .error error) :
    (store.apply desired).2.records = store.records := by
  unfold MemoryStore.apply at failed ⊢
  split at failed
  next => rfl
  next => cases failed

instance : LawfulStore MemoryStore where
  records := MemoryStore.records
  records_recorded _ := rfl
  eq_of_recorded found := (Except.ok.inj found).symm
  writes_of_ok {store desired outcome} ok := by
    simp only [StatusStore.apply, MemoryStore.apply] at ok ⊢
    split at ok
    next => cases ok
    next => exact fun port => StatusMap.getElem?_overwrite_differing
  writes_of_error failed := .inl (MemoryStore.records_apply_of_error failed)

instance : AbortingStore MemoryStore where
  records_of_error := MemoryStore.records_apply_of_error

end LoopGuard
