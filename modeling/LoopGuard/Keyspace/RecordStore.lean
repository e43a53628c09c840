import LoopGuard.Keyspace.Server
import LoopGuard.Store.Basic

/-!
# Status records in a keyspace

A `RecordStore` keeps the status of each port in a field of its record, a hash
under the record key of the port. Committing runs one script, so that all
differing records are written or none. Records under malformed keys, and
statuses that are no status, are passed over when all are read back.
-/

namespace LoopGuard.Keyspace

/-- Status records in one keyspace of a server. -/
structure RecordStore where
  server : Server
  number : Int

namespace RecordStore

def recordsOf (desired : StatusMap) : List (String × String) :=
  desired.toList.map fun (port, status) => (recordKey port, status.text)

def applySession (number : Int) (desired : StatusMap) : Session ApplyOutcome :=
  if desired.isEmpty then return {}
  else do
    let written ← Session.commit number statusField (recordsOf desired)
    return { examined := desired.size, written }

def portOfKey? (key : String) : Option PortRef :=
  (Text.withoutPrefix? (statusKey "") key).bind PortRef.ofStoreKey?

/-- Reads the record under one key into a map of statuses. -/
def readRecord (number : Int) (statuses : StatusMap) (key : String) : Session StatusMap :=
  match portOfKey? key with
  | none => return statuses
  | some port => do
    match (← Session.field? number key statusField).bind PortStatus.ofText? with
    | none => return statuses
    | some status => return statuses.insert port status

def recordedSession (number : Int) : Session StatusMap := do
  (← Session.keys number statusPattern).foldlM (readRecord number) ∅

def run {α : Type} (store : RecordStore) (session : Session α) :
    Except StoreError α × RecordStore :=
  let done := session.toStore store.server
  (done.1, { store with server := done.2 })

instance : StatusStore RecordStore where
  latency _ := 0
  apply store desired := store.run (applySession store.number desired)
  recorded store := store.run (recordedSession store.number)

/-- The recorded status of one port. A word that is no status makes no sense. -/
def status? (store : RecordStore) (port : PortRef) :
    Except StoreError (Option PortStatus) × RecordStore :=
  let key := recordKey port
  match store.run (Session.field? store.number key statusField) with
  | (.error error, store) => (.error error, store)
  | (.ok none, store) => (.ok none, store)
  | (.ok (some word), store) =>
    match PortStatus.ofText? word with
    | some status => (.ok (some status), store)
    | none => (.error (.invalidReply ("unknown status '" ++ word ++ "' for " ++ key)), store)

end RecordStore

end LoopGuard.Keyspace
