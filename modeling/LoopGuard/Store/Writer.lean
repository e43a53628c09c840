import LoopGuard.Store.Basic

/-!
# Writing with retries

A commit that fails in a way that may pass is tried again after a pause, up to
the attempt limit of a `RetryPolicy`; any other failure, and the failure of the
last attempt, is final. `RetryPolicy.write` carries a whole commit out and
accounts for its attempts, its pauses and the time they take.
-/

namespace LoopGuard

/-- How often a commit is tried, and the pause between attempts in
milliseconds. -/
structure RetryPolicy where
  maxAttempts : Nat := 3
  backoff : Nat := 100
deriving DecidableEq, Repr

/-- What a committed batch did. -/
structure WriteReport where
  examined : Nat := 0
  written : Nat := 0
  attempts : Nat := 0
deriving DecidableEq, Repr

/-- The report of a batch that one application committed. -/
def ApplyOutcome.report (outcome : ApplyOutcome) (attempts : Nat) : WriteReport where
  examined := outcome.examined
  written := outcome.written
  attempts := attempts

/-- A commit carried out to its end. -/
structure Written (σ : Type) where
  result : Except StoreError WriteReport
  store : σ
  /-- How often the backoff was waited. -/
  pauses : Nat := 0
  /-- The time taken, in milliseconds. -/
  elapsed : Nat := 0

namespace RetryPolicy

variable {σ : Type} [StatusStore σ]

/-- The number of attempts; the first one is always made. -/
def limit (policy : RetryPolicy) : Nat := max 1 policy.maxAttempts

/-- Whether a failed attempt, the `attempt`th, is followed by another. -/
def retries (policy : RetryPolicy) (attempt : Nat) (error : StoreError) : Bool :=
  error.isRetryable && attempt < policy.limit

/-- Carries a commit out from its `attempt`th attempt on. -/
def writeFrom (policy : RetryPolicy) (desired : StatusMap) (attempt : Nat) (store : σ) :
    Written σ :=
  let latency := StatusStore.latency store
  match StatusStore.apply store desired with
  | (.ok outcome, store) =>
    { result := .ok (outcome.report attempt), store, elapsed := latency }
  | (.error error, store) =>
    if _ : policy.retries attempt error then
      let later := policy.writeFrom desired (attempt + 1) store
      { later with
        pauses := later.pauses + 1
        elapsed := latency + policy.backoff + later.elapsed }
    else { result := .error error, store, elapsed := latency }
termination_by policy.limit - attempt
decreasing_by
  have := ‹policy.retries attempt error = true›
  simp only [retries, Bool.and_eq_true, decide_eq_true_eq] at this
  omega

/-- Commits the desired statuses. An empty map is not worth a visit to the
store. -/
def write (policy : RetryPolicy) (desired : StatusMap) (store : σ) : Written σ :=
  if desired.isEmpty then { result := .ok {}, store }
  else policy.writeFrom desired 1 store

end RetryPolicy

end LoopGuard
