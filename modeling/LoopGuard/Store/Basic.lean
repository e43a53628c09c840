import LoopGuard.Status.Basic
import LoopGuard.Store.Error

/-!
# Stores of port statuses

The store is where the engine's decisions end up. Applying a map of desired
statuses compares each with its record and writes those that differ, all of
them or none.
-/

namespace LoopGuard

/-- What one application did. -/
structure ApplyOutcome where
  /-- The records compared with their desired status. -/
  examined : Nat := 0
  /-- The records created or changed. -/
  written : Nat := 0
deriving DecidableEq, Repr

/-- A store of port statuses. Each operation gives its result and the store
after it. -/
class StatusStore (σ : Type) where
  /-- How long an application waits before it takes effect, in milliseconds. -/
  latency : σ → Nat
  /-- Writes the desired statuses that differ from their records. -/
  apply : σ → StatusMap → Except StoreError ApplyOutcome × σ
  /-- Reads every recorded status. -/
  recorded : σ → Except StoreError StatusMap × σ

end LoopGuard
