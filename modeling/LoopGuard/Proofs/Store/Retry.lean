import LoopGuard.Proofs.Store.Commit
import Mathlib.Data.List.TakeWhile

/-!
# How often a commit is tried

Over a store in memory the failures to come are queued, so it can be said beforehand how
a commit ends. It meets the retryable failures at the head of the queue one by one, each
followed by a pause (`RetryPolicy.write_of_retried`). It stops at the first failure that
is final, or that the last attempt meets (`RetryPolicy.write_of_final`), and succeeds when
there is none left before that (`RetryPolicy.write_of_retryable`).
-/

namespace LoopGuard

/-! ## Applications to a store in memory -/

namespace MemoryStore

variable {store : MemoryStore} {desired : StatusMap} {error : StoreError}
  {later : List StoreError}

/-- The store once so many applications have met the failures at the head of the
queue. -/
def afterFailures (store : MemoryStore) (count : Nat) : MemoryStore :=
  { store with
    failures := store.failures.drop count
    applies := store.applies + count }

/-- The store once an application has written the statuses that differ. -/
def afterCommit (store : MemoryStore) (desired : StatusMap) : MemoryStore :=
  let changed := desired.differing store.records
  { store with
    records := store.records.overwrite changed
    applies := store.applies + 1
    writes := store.writes + changed.length }

theorem afterFailures_add (store : MemoryStore) (first second : Nat) :
    (store.afterFailures first).afterFailures second = store.afterFailures (first + second) := by
  simp [afterFailures, Nat.add_assoc]

theorem apply_of_failing (failing : store.failures = error :: later) :
    StatusStore.apply store desired = (.error error, store.afterFailures 1) := by
  simp [StatusStore.apply, apply, afterFailures, failing]

theorem apply_of_working (working : store.failures = []) :
    StatusStore.apply store desired =
      (.ok { examined := desired.size, written := (desired.differing store.records).length },
        store.afterCommit desired) := by
  simp [StatusStore.apply, apply, afterCommit, working]

end MemoryStore

/-- How many records differ from their desired statuses. -/
theorem StatusMap.length_differing (desired recorded : StatusMap) :
    (desired.differing recorded).length =
      desired.keys.countP fun port => recorded[port]? ≠ desired[port]? := by
  rw [differing, ← List.countP_eq_length_filter, ← Std.ExtTreeMap.map_fst_toList_eq_keys,
    List.countP_map]
  refine List.countP_congr fun entry listed => ?_
  have wanted : desired[entry.1]? = some entry.2 :=
    Std.ExtTreeMap.mem_toList_iff_getElem?_eq_some.1 listed
  simp [wanted]

namespace StoreError

variable {failures : List StoreError} {error : StoreError} {count : Nat}

/-! ## The head of the queue -/

theorem isRetryable_of_mem_takeWhile (mem : error ∈ failures.takeWhile isRetryable) :
    error.isRetryable = true :=
  List.mem_takeWhile_imp mem

/-- The last of so many failures that may pass, with the others before it. -/
theorem exists_split_of_le (some : 0 < count)
    (enough : count ≤ (failures.takeWhile isRetryable).length) :
    ∃ errors error later, failures = errors ++ error :: later ∧ errors.length + 1 = count ∧
      ∀ error ∈ errors, error.isRetryable = true := by
  have head : failures.takeWhile isRetryable <+: failures := List.takeWhile_prefix _
  have inside : count - 1 < failures.length := by
    have whole := head.length_le
    omega
  refine ⟨failures.take (count - 1), failures[count - 1], failures.drop (count - 1 + 1), ?_, ?_,
    fun error taken => ?_⟩
  · rw [← List.drop_eq_getElem_cons inside, List.take_append_drop]
  · rw [List.length_take_of_le (Nat.le_of_lt inside), Nat.sub_add_cancel some]
  · have early : failures.take (count - 1) <+: failures.takeWhile isRetryable := by
      refine List.prefix_of_prefix_length_le (List.take_prefix _ _) head ?_
      rw [List.length_take_of_le (Nat.le_of_lt inside)]
      omega
    exact isRetryable_of_mem_takeWhile (early.subset taken)

/-- The failure after all those at the head that may pass is final. -/
theorem exists_split_of_next
    (next : failures[(failures.takeWhile isRetryable).length]? = some error) :
    error.isRetryable = false ∧
      ∃ later, failures = failures.takeWhile isRetryable ++ error :: later := by
  have whole : failures.takeWhile isRetryable ++ failures.dropWhile isRetryable = failures :=
    List.takeWhile_append_dropWhile
  have head : (failures.dropWhile isRetryable).head? = some error := by
    have after : (failures.takeWhile isRetryable ++
        failures.dropWhile isRetryable)[(failures.takeWhile isRetryable).length]? =
          some error := by
      rw [whole]
      exact next
    rw [List.getElem?_append_right (Nat.le_refl _), Nat.sub_self] at after
    rw [List.head?_eq_getElem?, after]
  have stops := List.head?_dropWhile_not isRetryable failures
  rw [head] at stops
  obtain ⟨later, left⟩ := List.head?_eq_some_iff.1 head
  exact ⟨stops, later, by rw [← left, whole]⟩

end StoreError

/-- The commit has applied its statuses so many times, with a pause after each but the
last, and has taken so many failures off the queue. -/
structure Written.Tried (written : Written MemoryStore) (policy : RetryPolicy)
    (store : MemoryStore) (attempts failed : Nat) : Prop where
  applies : written.store.applies = store.applies + attempts
  failures : written.store.failures = store.failures.drop failed
  pauses : written.pauses = attempts - 1
  elapsed : written.elapsed = attempts * store.latency + (attempts - 1) * policy.backoff

namespace RetryPolicy

variable {policy : RetryPolicy} {desired : StatusMap} {store : MemoryStore} {number : Nat}
  {error : StoreError} {errors later : List StoreError}

theorem retries_eq_true_iff :
    policy.retries number error = true ↔ error.isRetryable = true ∧ number < policy.limit := by
  simp [retries]

/-! ## One attempt -/

/-- A failure that is met again is followed by a pause and the next attempt. -/
theorem writeFrom_of_retries (failing : store.failures = error :: later)
    (again : policy.retries number error = true) :
    policy.writeFrom desired number store =
      let next := policy.writeFrom desired (number + 1) (store.afterFailures 1)
      { next with
        pauses := next.pauses + 1
        elapsed := store.latency + policy.backoff + next.elapsed } := by
  rw [writeFrom, MemoryStore.apply_of_failing failing]
  simp only [dif_pos again]
  rfl

theorem writeFrom_of_final (failing : store.failures = error :: later)
    (final : policy.retries number error = false) :
    policy.writeFrom desired number store =
      { result := .error error, store := store.afterFailures 1, elapsed := store.latency } := by
  rw [writeFrom, MemoryStore.apply_of_failing failing]
  simp only [final, Bool.false_eq_true, dif_neg, not_false_eq_true]
  rfl

theorem writeFrom_of_working (working : store.failures = []) :
    policy.writeFrom desired number store =
      { result := .ok
          { examined := desired.size
            written := (desired.differing store.records).length
            attempts := number }
        store := store.afterCommit desired
        elapsed := store.latency } := by
  rw [writeFrom, MemoryStore.apply_of_working working]
  rfl

/-! ## Attempts that are retried -/

/-- As long as the limit is not reached, retryable failures cost an attempt and a pause
each. -/
theorem writeFrom_of_retried (queued : store.failures = errors ++ later)
    (retryable : ∀ error ∈ errors, error.isRetryable = true)
    (room : number + errors.length ≤ policy.limit) :
    policy.writeFrom desired number store =
      let last := policy.writeFrom desired (number + errors.length)
        (store.afterFailures errors.length)
      { last with
        pauses := last.pauses + errors.length
        elapsed := errors.length * (store.latency + policy.backoff) + last.elapsed } := by
  induction errors generalizing number store with
  | nil => simp [MemoryStore.afterFailures]
  | cons error errors ih =>
    rw [List.forall_mem_cons] at retryable
    rw [List.length_cons] at room
    have again : policy.retries number error = true :=
      retries_eq_true_iff.2 ⟨retryable.1, by omega⟩
    have left : (store.afterFailures 1).failures = errors ++ later := by
      simp [MemoryStore.afterFailures, queued]
    rw [writeFrom_of_retries queued again, ih left retryable.2 (by omega)]
    have place : number + 1 + errors.length = number + (errors.length + 1) := by omega
    simp only [MemoryStore.afterFailures_add, List.length_cons, place,
      Nat.add_comm 1 errors.length, Written.mk.injEq, true_and]
    refine ⟨by omega, ?_⟩
    simp only [MemoryStore.afterFailures]
    rw [Nat.add_mul, Nat.one_mul]
    omega

/-! ## Whole commits -/

section Write

variable (nonempty : desired ≠ ∅) (retryable : ∀ error ∈ errors, error.isRetryable = true)
  (room : errors.length < policy.limit)

include nonempty retryable room

theorem write_of_retried (queued : store.failures = errors ++ later) :
    policy.write desired store =
      let last := policy.writeFrom desired (errors.length + 1) (store.afterFailures errors.length)
      { last with
        pauses := last.pauses + errors.length
        elapsed := errors.length * (store.latency + policy.backoff) + last.elapsed } := by
  have full : ¬desired.isEmpty = true := fun empty => nonempty (Std.ExtTreeMap.isEmpty_iff.1 empty)
  rw [write, if_neg full, writeFrom_of_retried queued retryable (by omega),
    Nat.add_comm 1 errors.length]

/-- A commit ends with the first failure that is not met again. -/
theorem write_of_final (queued : store.failures = errors ++ error :: later)
    (final : policy.retries (errors.length + 1) error = false) :
    policy.write desired store =
      { result := .error error
        store := store.afterFailures (errors.length + 1)
        pauses := errors.length
        elapsed := (errors.length + 1) * store.latency + errors.length * policy.backoff } := by
  have failing : (store.afterFailures errors.length).failures = error :: later := by
    simp [MemoryStore.afterFailures, queued]
  rw [write_of_retried nonempty retryable room queued, writeFrom_of_final failing final]
  simp only [MemoryStore.afterFailures_add, Written.mk.injEq, true_and, Nat.zero_add]
  simp only [MemoryStore.afterFailures, Nat.mul_add, Nat.add_mul, Nat.one_mul]
  omega

/-- A commit succeeds when the queue is empty before the limit is reached. -/
theorem write_of_retryable (queued : store.failures = errors) :
    policy.write desired store =
      { result := .ok
          { examined := desired.size
            written := (desired.differing store.records).length
            attempts := errors.length + 1 }
        store := (store.afterFailures errors.length).afterCommit desired
        pauses := errors.length
        elapsed := (errors.length + 1) * store.latency + errors.length * policy.backoff } := by
  have working : (store.afterFailures errors.length).failures = [] := by
    simp [MemoryStore.afterFailures, queued]
  rw [← List.append_nil errors] at queued
  rw [write_of_retried nonempty retryable room queued, writeFrom_of_working working]
  simp only [Written.mk.injEq, true_and, Nat.zero_add]
  simp only [MemoryStore.afterFailures, Nat.mul_add, Nat.add_mul, Nat.one_mul, true_and]
  omega

end Write

/-- A commit of some statuses to a store in memory meets the failures that are queued,
as long as they may be retried and the attempts last. With as many of them as attempts
it ends with the one that the last attempt meets; with fewer, it ends with the final
failure that comes next, or succeeds if none does, having written the records that
differ. Each attempt but the last is followed by a pause and each failed one takes its
failure off the queue; a commit that fails leaves the records alone. A commit of nothing
does not touch the store. -/
theorem write_meets_queued_failures (policy : RetryPolicy) (desired : StatusMap)
    (store : MemoryStore) :
    let limit := max 1 policy.maxAttempts
    let retried := (store.failures.takeWhile StoreError.isRetryable).length
    let written := policy.write desired store
    (desired ≠ ∅ →
      (limit ≤ retried → ∃ error, store.failures[limit - 1]? = some error ∧
        written.result = .error error ∧ written.store.records = store.records ∧
        written.Tried policy store limit limit) ∧
      (∀ error, retried < limit → store.failures[retried]? = some error →
        error.isRetryable = false ∧ written.result = .error error ∧
        written.store.records = store.records ∧
        written.Tried policy store (retried + 1) (retried + 1)) ∧
      (retried < limit → store.failures.length = retried →
        written.result = .ok
          { examined := desired.size
            written := desired.keys.countP fun port => store.records[port]? ≠ desired[port]?
            attempts := retried + 1 } ∧
        desired.Writes store.records written.store.records ∧
        written.Tried policy store (retried + 1) retried)) ∧
    (desired = ∅ →
      written = { result := .ok ⟨0, 0, 0⟩, store := store, pauses := 0, elapsed := 0 }) := by
  intro limit retried written
  have retryable : ∀ error ∈ store.failures.takeWhile StoreError.isRetryable,
      error.isRetryable = true := fun error => StoreError.isRetryable_of_mem_takeWhile
  have first : 0 < limit := Nat.lt_of_lt_of_le Nat.zero_lt_one (Nat.le_max_left ..)
  refine ⟨fun nonempty => ⟨fun enough => ?_, fun error few next => ?_, fun few all => ?_⟩,
    fun empty => ?_⟩
  · obtain ⟨errors, error, later, queued, count, early⟩ :=
      StoreError.exists_split_of_le first enough
    have room : errors.length < policy.limit := by
      rw [RetryPolicy.limit]
      omega
    have final : policy.retries (errors.length + 1) error = false := by
      rw [← Bool.not_eq_true, retries_eq_true_iff]
      exact fun ⟨_, more⟩ => absurd more (by rw [RetryPolicy.limit]; omega)
    have ends : written = _ := write_of_final nonempty early room queued final
    rw [ends, queued, ← count]
    exact ⟨error, by simp, rfl, rfl, ⟨rfl, rfl, rfl, rfl⟩⟩
  · obtain ⟨final, later, queued⟩ := StoreError.exists_split_of_next next
    have ends : written = _ :=
      write_of_final nonempty retryable few queued (by simp [retries, final])
    rw [ends]
    exact ⟨final, rfl, rfl, ⟨rfl, rfl, rfl, rfl⟩⟩
  · have queued : store.failures = store.failures.takeWhile StoreError.isRetryable :=
      ((List.takeWhile_prefix _).eq_of_length all.symm).symm
    have ends : written = _ := write_of_retryable nonempty retryable few queued
    rw [ends]
    refine ⟨?_, fun port => StatusMap.getElem?_overwrite_differing, ⟨rfl, rfl, rfl, rfl⟩⟩
    rw [StatusMap.length_differing]
  · subst empty
    rfl

/-- A conflict and a lost connection may pass, and the third failure may not. Two attempts
are too few to see it, three end with it, and without it they suffice to write the one
record that differs and the one that is missing. -/
theorem third_attempt_decides :
    let status (port : String) : PortRef × PortStatus := (.of "A" port, .forwarding)
    let desired : StatusMap := Std.ExtTreeMap.ofList [status "1", status "2", status "3"] _
    let records : StatusMap := Std.ExtTreeMap.ofList [status "1", (.of "A" "2", .discarding)] _
    let passing : List StoreError := [.conflict "A:2", .connection "refused"]
    let store : MemoryStore := { records, latency := 3, failures := passing ++ [.invalidReply "?"] }
    let working : MemoryStore := { store with failures := passing }
    let twice : RetryPolicy := { maxAttempts := 2, backoff := 7 }
    let thrice : RetryPolicy := { maxAttempts := 3, backoff := 7 }
    desired ≠ ∅ ∧
      (twice.write desired store).result = .error (.connection "refused") ∧
      (twice.write desired store).Tried twice store 2 2 ∧
      (thrice.write desired store).result = .error (.invalidReply "?") ∧
      (thrice.write desired store).Tried thrice store 3 3 ∧
      (thrice.write desired working).result = .ok { examined := 3, written := 2, attempts := 3 } ∧
      desired.Writes records (thrice.write desired working).store.records ∧
      (thrice.write desired working).Tried thrice working 3 2 := by
  intro status desired records passing store working twice thrice
  have nonempty : desired ≠ ∅ := by
    rw [Ne, ← Std.ExtTreeMap.isEmpty_iff]
    decide +kernel
  obtain ⟨error, met, result, -, tried⟩ :=
    ((write_meets_queued_failures twice desired store).1 nonempty).1 (by decide)
  obtain ⟨-, result', -, tried'⟩ :=
    ((write_meets_queued_failures thrice desired store).1 nonempty).2.1 (.invalidReply "?")
      (by decide) (by decide)
  obtain ⟨result'', written, tried''⟩ :=
    ((write_meets_queued_failures thrice desired working).1 nonempty).2.2 (by decide) (by decide)
  cases met
  refine ⟨nonempty, result, tried, result', tried', ?_, written, tried''⟩
  rw [result'']
  decide +kernel

end RetryPolicy

end LoopGuard
