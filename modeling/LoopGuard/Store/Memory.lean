import LoopGuard.Store.Basic

/-!
# A store in memory

A `MemoryStore` holds its records in a map. Failures can be queued up; each of
them fails one application, which then leaves the records alone.
-/

namespace LoopGuard

/-- Records in memory, with the failures still to happen. -/
structure MemoryStore where
  records : StatusMap := ∅
  failures : List StoreError := []
  /-- The number of applications, failed ones included. -/
  applies : Nat := 0
  /-- The number of records written so far. -/
  writes : Nat := 0
  latency : Nat := 0

namespace MemoryStore

def empty : MemoryStore := {}

/-- Makes the next `count` applications fail, after those already to fail. -/
def failNext (store : MemoryStore) (count : Nat) (error : StoreError) : MemoryStore :=
  { store with failures := store.failures ++ List.replicate count error }

/-- Makes every application wait before it takes effect. -/
def setLatency (store : MemoryStore) (latency : Nat) : MemoryStore := { store with latency }

/-- Writes the desired statuses that differ, or meets the next queued failure. -/
def apply (store : MemoryStore) (desired : StatusMap) :
    Except StoreError ApplyOutcome × MemoryStore :=
  let called := { store with applies := store.applies + 1 }
  match store.failures with
  | error :: later => (.error error, { called with failures := later })
  | [] =>
    let changed := desired.differing store.records
    (.ok { examined := desired.size, written := changed.length },
      { called with
        records := store.records.overwrite changed
        writes := store.writes + changed.length })

def status? (store : MemoryStore) (port : PortRef) : Option PortStatus := store.records[port]?

instance : StatusStore MemoryStore where
  latency := MemoryStore.latency
  apply := apply
  recorded store := (.ok store.records, store)

end MemoryStore

end LoopGuard
