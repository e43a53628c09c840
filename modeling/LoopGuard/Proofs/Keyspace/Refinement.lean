import LoopGuard.Proofs.Keyspace.Records
import LoopGuard.Proofs.Keyspace.Session
import LoopGuard.Store.Memory

/-!
# Records in a keyspace as a store in memory

A record store stands for a store in memory that holds the statuses on record.
As long as the server is well, it applies statuses to well-formed ports as that
store does, all of them or none, touches nothing else in the keyspace, and reads
back what that store holds.
-/

namespace LoopGuard.Keyspace.RecordStore

variable {store : RecordStore} {memory : MemoryStore} {desired : StatusMap} {port : PortRef}

def keyspace (store : RecordStore) : Keyspace := store.server.keyspace store.number

/-- The failure on a key that holds a value of another type. -/
def wrongType : StoreError := (Failure.ofLine Server.wrongTypeLine).toStoreError

/-- The records under the listed keys, read one after the other. -/
def reading (store : RecordStore) (listed : List String) : Session StatusMap :=
  listed.foldlM (readRecord store.number) ∅

/-- The store in memory holds the statuses on record, and nothing is about to
fail in either store. -/
structure Refines (store : RecordStore) (memory : MemoryStore) : Prop where
  well : store.server.faults = []
  failures : memory.failures = []
  records (port : PortRef) :
    memory.records[port]? = if port.WellFormed then store.keyspace.status? port else none

/-- Only the status fields of some ports may have changed. -/
structure OnlyStatuses (desired : StatusMap) (before after : RecordStore) : Prop where
  number : after.number = before.number
  other_keyspaces (number : Int) : number ≠ before.number →
    after.server.keyspace number = before.server.keyspace number
  other_keys (key : String) : (∀ port ∈ desired, recordKey port ≠ key) →
    after.keyspace[key]? = before.keyspace[key]?
  other_fields (key field : String) : field ≠ statusField →
    after.keyspace.value? key field = before.keyspace.value? key field

theorem Refines.eq_statuses (refines : Refines store memory) :
    memory.records = store.keyspace.statuses :=
  Std.ExtTreeMap.ext_getElem? fun port => (refines.records port).trans getElem?_statuses.symm

theorem refines_statuses (well : store.server.faults = []) :
    Refines store { records := store.keyspace.statuses } where
  well := well
  failures := rfl
  records _ := getElem?_statuses

/-! ## Applying statuses -/

theorem keyspace_setKeyspace {server : Server} {number other : Int} {keyspace : Keyspace} :
    (server.setKeyspace number keyspace).keyspace other =
      if other = number then keyspace else server.keyspace other := by
  by_cases same : other = number
  · subst same
    simp [Server.keyspace, Server.setKeyspace]
  · simp [Server.keyspace, Server.setKeyspace, Std.ExtTreeMap.getD_insert, same, Ne.symm same]

theorem apply_of_commit_ok {written : Nat} {server : Server} (some : desired.isEmpty = false)
    (ok : Session.commit store.number statusField (recordsOf desired) store.server =
      (.ok written, server)) :
    StatusStore.apply store desired =
      (.ok { examined := desired.size, written }, { store with server }) := by
  have applied : applySession store.number desired store.server =
      (.ok { examined := desired.size, written }, server) := by
    rw [applySession, if_neg (by simp [some]), Session.bind_of_ok ok]
    rfl
  simp only [StatusStore.apply, run, Session.toStore, applied, Except.mapError]

theorem apply_of_commit_error {failure : Failure} {server : Server} (some : desired.isEmpty = false)
    (failed : Session.commit store.number statusField (recordsOf desired) store.server =
      (.error failure, server)) :
    StatusStore.apply store desired = (.error failure.toStoreError, { store with server }) := by
  have applied : applySession store.number desired store.server = (.error failure, server) := by
    rw [applySession, if_neg (by simp [some]), Session.bind_of_error failed]
  simp only [StatusStore.apply, run, Session.toStore, applied, Except.mapError]

/-- The store after a commit that has led to another keyspace. -/
def filed (store : RecordStore) (after : Keyspace) : RecordStore :=
  { store with server := { store.server with knowsScript := true }.setKeyspace store.number after }

@[simp]
theorem keyspace_filed {after : Keyspace} : (store.filed after).keyspace = after := by
  rw [keyspace, filed, keyspace_setKeyspace, if_pos rfl]

theorem onlyStatuses_filed {after : Keyspace}
    (writes : Writes statusField (recordsOf desired) store.keyspace after) :
    OnlyStatuses desired store (store.filed after) where
  number := rfl
  other_keyspaces number other := by
    rw [filed, keyspace_setKeyspace, if_neg other]
    rfl
  other_keys key others := by
    rw [keyspace_filed]
    refine writes.other_keys key fun among => ?_
    obtain ⟨record, inside, same⟩ := List.mem_map.1 among
    obtain ⟨port, status, wanted, rfl⟩ := mem_recordsOf.1 inside
    exact others port (mem_of_getElem? wanted) same
  other_fields key field other := by
    rw [keyspace_filed]
    by_cases accepted : store.keyspace.HashOrAbsent key
    · rw [value?_of_hashOrAbsent accepted, value?_of_hashOrAbsent ((writes.accepts key).2 accepted),
        writes.other_fields key field other]
    · rw [value?_of_not_hashOrAbsent accepted,
        value?_of_not_hashOrAbsent (mt (writes.accepts key).1 accepted)]

/-- Statuses to ports whose keys are free for them are all applied. -/
theorem apply_of_hashOrAbsent (well : store.server.faults = [])
    (wellFormed : ∀ port ∈ desired, port.WellFormed)
    (accepted : ∀ port ∈ desired, store.keyspace.HashOrAbsent (recordKey port)) :
    ∃ after : RecordStore,
      StatusStore.apply store desired =
        (.ok { examined := desired.size
               written := (desired.differing store.keyspace.statuses).length % UInt64.size }, after) ∧
      after.server.faults = [] ∧ OnlyStatuses desired store after ∧
      after.keyspace.statuses =
        store.keyspace.statuses.overwrite (desired.differing store.keyspace.statuses) := by
  cases some : desired.isEmpty with
  | true =>
    obtain rfl : desired = ∅ := Std.ExtTreeMap.isEmpty_iff.1 some
    refine ⟨store, rfl, well, ⟨rfl, fun _ _ => rfl, fun _ _ => rfl, fun _ _ _ => rfl⟩, ?_⟩
    exact Std.ExtTreeMap.insertMany_nil.symm
  | false =>
    obtain ⟨after, written, writes⟩ : ∃ after,
        store.keyspace.writeAll statusField (recordsOf desired) =
          .ok (((recordsOf desired).filter (store.keyspace.differs statusField)).length, after) ∧
        Writes statusField (recordsOf desired) store.keyspace after := by
      refine writeAll_of_hashOrAbsent (nodup_recordsOf wellFormed) fun record inside => ?_
      obtain ⟨port, status, wanted, rfl⟩ := mem_recordsOf.1 inside
      exact accepted port (mem_of_getElem? wanted)
    refine ⟨store.filed after, apply_of_commit_ok some ?_, well, onlyStatuses_filed writes, ?_⟩
    · rw [length_filter_differs wellFormed, keyspace] at written
      rw [Session.commit_eq well, Session.committed, written]
      rfl
    · rw [keyspace_filed]
      exact writes.statuses_eq wellFormed

/-- One key that holds something else, and nothing is applied. -/
theorem apply_of_not_hashOrAbsent (well : store.server.faults = [])
    (refused : ∃ port ∈ desired, ¬ store.keyspace.HashOrAbsent (recordKey port)) :
    StatusStore.apply store desired =
      (.error wrongType, { store with server := { store.server with knowsScript := true } }) := by
  obtain ⟨port, inside, refused⟩ := refused
  have some : desired.isEmpty = false := by
    refine Std.ExtTreeMap.isEmpty_eq_false_iff.2 fun empty => ?_
    rw [empty] at inside
    exact Std.ExtTreeMap.not_mem_empty inside
  have written : store.keyspace.writeAll statusField (recordsOf desired) = .error {} := by
    refine writeAll_of_not_hashOrAbsent ⟨(recordKey port, (desired[port]).text), ?_, refused⟩
    exact mem_recordsOf.2 ⟨port, desired[port], by simp, rfl⟩
  refine apply_of_commit_error some ?_
  rw [keyspace] at written
  rw [Session.commit_eq well, Session.committed, written]

/-! ## Reading statuses -/

section Reading

variable {found : StatusMap} {key : String} {listed : List String}

/-- The record under the key can be read, or there is none to be read. -/
def Readable (store : RecordStore) (key : String) : Prop :=
  ∀ port, portOfKey? key = some port → store.keyspace.HashOrAbsent key

theorem readRecord_of_readable (well : store.server.faults = []) (readable : store.Readable key) :
    readRecord store.number found key store.server =
      (.ok (store.keyspace.read found [key]), store.server) := by
  cases named : portOfKey? key with
  | none =>
    have nothing : store.keyspace.record? key = none := by rw [record?, named, Option.bind_none]
    simp only [readRecord, named, Keyspace.read, List.filterMap, nothing,
      Std.ExtTreeMap.insertMany_nil]
    rfl
  | some port =>
    obtain ⟨-, same⟩ := portOfKey?_eq_some_iff.1 named
    have field : Session.field? store.number key statusField store.server =
        (.ok (store.keyspace.held? key statusField), store.server) :=
      Session.field?_of_hashOrAbsent well (readable port named)
    have record : store.keyspace.record? key =
        ((store.keyspace.held? key statusField).bind PortStatus.ofText?).map (port, ·) := by
      rw [record?, named, Option.bind_some, Keyspace.status?, same]
    simp only [readRecord, named]
    rw [Session.bind_of_ok field, Keyspace.read, List.filterMap, record]
    cases (store.keyspace.held? key statusField).bind PortStatus.ofText? with
    | none => rfl
    | some status => rfl

theorem readRecord_of_not_readable (well : store.server.faults = [])
    (unreadable : ¬ store.Readable key) :
    readRecord store.number found key store.server =
      (.error (.ofLine Server.wrongTypeLine), store.server) := by
  obtain ⟨port, unreadable⟩ := not_forall.1 unreadable
  obtain ⟨named, refused⟩ := Classical.not_imp.1 unreadable
  have field : Session.field? store.number key statusField store.server =
      (.error (.ofLine Server.wrongTypeLine), store.server) :=
    Session.field?_of_not_hashOrAbsent well refused
  simp only [readRecord, named]
  rw [Session.bind_of_error field]

theorem foldlM_readRecord_of_readable (well : store.server.faults = [])
    (readable : ∀ key ∈ listed, store.Readable key) :
    listed.foldlM (readRecord store.number) found store.server =
      (.ok (store.keyspace.read found listed), store.server) := by
  rw [Keyspace.read, insertMany_filterMap]
  exact Session.foldlM_of_ok fun _ key inside => readRecord_of_readable well (readable key inside)

theorem foldlM_readRecord_of_not_readable (well : store.server.faults = [])
    (unreadable : ∃ key ∈ listed, ¬ store.Readable key) :
    listed.foldlM (readRecord store.number) found store.server =
      (.error (.ofLine Server.wrongTypeLine), store.server) :=
  Session.foldlM_of_error
    (fun _ _ _ readable => ⟨_, readRecord_of_readable well readable⟩)
    (fun _ _ _ unreadable => readRecord_of_not_readable well unreadable) unreadable

/-- A key that names no port is passed over, so only records can be in the way. -/
theorem readable_of_hashOrAbsent
    (accepted : ∀ port : PortRef, port.WellFormed → store.keyspace.HashOrAbsent (recordKey port)) :
    store.Readable key := by
  intro port named
  obtain ⟨wellFormed, same⟩ := portOfKey?_eq_some_iff.1 named
  rw [← same]
  exact accepted port wellFormed

theorem reading_of_hashOrAbsent (well : store.server.faults = [])
    (listing : listed.Perm (store.keyspace.keysMatching statusPattern))
    (accepted : ∀ port : PortRef, port.WellFormed → store.keyspace.HashOrAbsent (recordKey port)) :
    store.run (store.reading listed) = (.ok store.keyspace.statuses, store) := by
  have read : store.reading listed store.server =
      (.ok (store.keyspace.read ∅ listed), store.server) :=
    foldlM_readRecord_of_readable well fun key _ => readable_of_hashOrAbsent accepted
  rw [read_of_perm listing] at read
  simp only [run, Session.toStore, read, Except.mapError]

theorem reading_of_not_hashOrAbsent (well : store.server.faults = [])
    (listing : listed.Perm (store.keyspace.keysMatching statusPattern))
    (wellFormed : port.WellFormed) (refused : ¬ store.keyspace.HashOrAbsent (recordKey port)) :
    store.run (store.reading listed) = (.error wrongType, store) := by
  have inside : recordKey port ∈ store.keyspace := mem_of_not_hashOrAbsent refused
  have failed : store.reading listed store.server =
      (.error (.ofLine Server.wrongTypeLine), store.server) := by
    refine foldlM_readRecord_of_not_readable well ⟨recordKey port, ?_, fun readable => refused ?_⟩
    · exact listing.mem_iff.2 (recordKey_mem_keysMatching inside)
    · exact readable port (portOfKey?_eq_some_iff.2 ⟨wellFormed, rfl⟩)
  simp only [run, Session.toStore, failed, Except.mapError]
  rfl

/-- All records are read under the keys in the order in which the server lists
them. -/
theorem recorded_eq (well : store.server.faults = []) :
    StatusStore.recorded store =
      store.run (store.reading (store.keyspace.keysMatching statusPattern)) := by
  have session : recordedSession store.number store.server =
      store.reading (store.keyspace.keysMatching statusPattern) store.server := by
    rw [recordedSession, Session.bind_of_ok (Session.keys_eq well)]
    rfl
  simp only [StatusStore.recorded, run, Session.toStore, session]

/-! ## The record of one port -/

theorem status?_of_not_hashOrAbsent (well : store.server.faults = [])
    (refused : ¬ store.keyspace.HashOrAbsent (recordKey port)) :
    store.status? port = (.error wrongType, store) := by
  have field : Session.field? store.number (recordKey port) statusField store.server =
      (.error (.ofLine Server.wrongTypeLine), store.server) :=
    Session.field?_of_not_hashOrAbsent well refused
  simp only [status?, run, Session.toStore, field, Except.mapError]
  rfl

theorem status?_of_hashOrAbsent (well : store.server.faults = [])
    (accepted : store.keyspace.HashOrAbsent (recordKey port)) :
    store.status? port =
      match store.keyspace.held? (recordKey port) statusField with
      | none => (.ok none, store)
      | some word =>
        match PortStatus.ofText? word with
        | some status => (.ok (some status), store)
        | none => (.error (.invalidReply
            ("unknown status '" ++ word ++ "' for " ++ recordKey port)), store) := by
  have field : Session.field? store.number (recordKey port) statusField store.server =
      (.ok (store.keyspace.held? (recordKey port) statusField), store.server) :=
    Session.field?_of_hashOrAbsent well accepted
  simp only [status?, run, Session.toStore, field, Except.mapError]
  cases store.keyspace.held? (recordKey port) statusField with
  | none => rfl
  | some word => cases PortStatus.ofText? word <;> rfl

end Reading

/-! ## Both stores side by side -/

/-- The outcome as the server reports it: what it counts, it counts in 64 bits. -/
def wrapped (outcome : ApplyOutcome) : ApplyOutcome :=
  { outcome with written := outcome.written % UInt64.size }

/-- What the record store does in place of the store in memory. -/
structure Simulates (store : RecordStore) (memory : MemoryStore) : Prop where
  /-- Where the keys are free for them, statuses are applied alike, and the stores
  go on alike. -/
  applies (desired : StatusMap) : (∀ port ∈ desired, port.WellFormed) →
    (∀ port ∈ desired, store.keyspace.HashOrAbsent (recordKey port)) →
    let done := StatusStore.apply store desired
    let expected := StatusStore.apply memory desired
    done.1 = expected.1.map wrapped ∧
      (desired.size < UInt64.size → done.1 = expected.1) ∧
      Refines done.2 expected.2 ∧ OnlyStatuses desired store done.2
  /-- One key that holds something else, and nothing is applied. -/
  refuses (desired : StatusMap) : (∀ port ∈ desired, port.WellFormed) →
    (¬ ∀ port ∈ desired, store.keyspace.HashOrAbsent (recordKey port)) →
    let done := StatusStore.apply store desired
    done.1 = .error wrongType ∧ Refines done.2 memory ∧ done.2.number = store.number ∧
      done.2.server.keyspaces = store.server.keyspaces
  /-- In whatever order the keys are listed, the same statuses are read. -/
  reads (listed : List String) : listed.Perm (store.keyspace.keysMatching statusPattern) →
    (∀ port : PortRef, port.WellFormed → store.keyspace.HashOrAbsent (recordKey port)) →
    store.run (store.reading listed) = ((StatusStore.recorded memory).1, store)
  /-- One record that is no hash, and reading fails. -/
  fails_to_read (listed : List String) : listed.Perm (store.keyspace.keysMatching statusPattern) →
    (¬ ∀ port : PortRef, port.WellFormed → store.keyspace.HashOrAbsent (recordKey port)) →
    store.run (store.reading listed) = (.error wrongType, store)
  /-- The server lists the keys in one of these orders. -/
  recorded : StatusStore.recorded store =
    store.run (store.reading (store.keyspace.keysMatching statusPattern))
  /-- The record of one port is read alike, unless it holds an unknown word. -/
  finds (port : PortRef) : port.WellFormed → store.keyspace.HashOrAbsent (recordKey port) →
    (∀ word, store.keyspace.held? (recordKey port) statusField = some word →
      PortStatus.ofText? word ≠ none) →
    store.status? port = (.ok (memory.status? port), store)
  /-- An unknown word is reported with the key of the record. -/
  reports_unknown (port : PortRef) (word : String) :
    store.keyspace.held? (recordKey port) statusField = some word →
    PortStatus.ofText? word = none →
    store.status? port = (.error (.invalidReply
      ("unknown status '" ++ word ++ "' for " ++ recordKey port)), store)
  /-- A record that is no hash cannot be read. -/
  fails_to_find (port : PortRef) : ¬ store.keyspace.HashOrAbsent (recordKey port) →
    store.status? port = (.error wrongType, store)

theorem length_differing_le {recorded : StatusMap} :
    (desired.differing recorded).length ≤ desired.size := by
  rw [← Std.ExtTreeMap.length_toList]
  exact List.length_filter_le ..

theorem Refines.simulates_apply (refines : Refines store memory)
    (wellFormed : ∀ port ∈ desired, port.WellFormed)
    (accepted : ∀ port ∈ desired, store.keyspace.HashOrAbsent (recordKey port)) :
    let done := StatusStore.apply store desired
    let expected := StatusStore.apply memory desired
    done.1 = expected.1.map wrapped ∧
      (desired.size < UInt64.size → done.1 = expected.1) ∧
      Refines done.2 expected.2 ∧ OnlyStatuses desired store done.2 := by
  intro done expected
  have equal := refines.eq_statuses
  obtain ⟨after, applied, well, only, statuses⟩ :=
    apply_of_hashOrAbsent refines.well wellFormed accepted
  have answer : expected.1 = .ok
      { examined := desired.size
        written := (desired.differing store.keyspace.statuses).length } := by
    simp only [expected, StatusStore.apply, MemoryStore.apply, refines.failures, equal]
  have records : expected.2.records = after.keyspace.statuses := by
    simp only [expected, StatusStore.apply, MemoryStore.apply, refines.failures, equal, statuses]
  have failures : expected.2.failures = [] := by
    simp only [expected, StatusStore.apply, MemoryStore.apply, refines.failures]
  simp only [done, applied, answer]
  refine ⟨rfl, fun fits => ?_, ⟨well, failures, fun port => ?_⟩, only⟩
  · rw [Nat.mod_eq_of_lt (Nat.lt_of_le_of_lt length_differing_le fits)]
  · rw [records, getElem?_statuses]

/-- A record store on a server that is well stands for a store in memory, and does
all that this store does. -/
theorem simulates_memory_store (store : RecordStore) (well : store.server.faults = []) :
    (∃ memory, Refines store memory) ∧ ∀ memory, Refines store memory → Simulates store memory := by
  refine ⟨⟨_, refines_statuses well⟩, fun memory refines => ?_⟩
  have equal := refines.eq_statuses
  constructor
  case applies =>
    intro desired wellFormed accepted
    exact refines.simulates_apply wellFormed accepted
  case refuses =>
    intro desired _ refused
    have some : ∃ port ∈ desired, ¬ store.keyspace.HashOrAbsent (recordKey port) := by
      by_contra none
      exact refused fun port inside => not_not.1 fun refused => none ⟨port, inside, refused⟩
    simp only [apply_of_not_hashOrAbsent well some]
    exact ⟨trivial, ⟨well, refines.failures, refines.records⟩, trivial, trivial⟩
  case reads =>
    intro listed listing accepted
    rw [reading_of_hashOrAbsent well listing accepted, ← equal]
    rfl
  case fails_to_read =>
    intro listed listing refused
    obtain ⟨port, refused⟩ := not_forall.1 refused
    obtain ⟨wellFormed, refused⟩ := Classical.not_imp.1 refused
    exact reading_of_not_hashOrAbsent well listing wellFormed refused
  case recorded => exact recorded_eq well
  case finds =>
    intro port wellFormed accepted known
    have recorded : memory.status? port = store.keyspace.status? port := by
      rw [MemoryStore.status?, refines.records port, if_pos wellFormed]
    rw [status?_of_hashOrAbsent well accepted, recorded, Keyspace.status?]
    cases held : store.keyspace.held? (recordKey port) statusField with
    | none => rfl
    | some word =>
      cases status : PortStatus.ofText? word with
      | none => exact absurd status (known word held)
      | some status => simp [status]
  case reports_unknown =>
    intro port word held unknown
    have accepted : store.keyspace.HashOrAbsent (recordKey port) := by
      intro text other
      rw [held?, fieldsAt, other] at held
      cases held.symm.trans Std.ExtTreeMap.getElem?_empty
    simp only [status?_of_hashOrAbsent well accepted, held, unknown]
  case fails_to_find =>
    intro port refused
    exact status?_of_not_hashOrAbsent well refused

/-- Records of all kinds: a known status, no status, a port with a bar in its
name, an unknown word; then a key that is no record, and a record that is no
hash. -/
def mixed : RecordStore where
  number := 6
  server.keyspaces := Std.ExtTreeMap.ofList [((6 : Int), Std.ExtTreeMap.ofList
    [("PORT_LOOP_STATUS_TABLE|A|1",
        Entry.hash (Std.ExtTreeMap.ofList [("status", "forwarding"), ("owner", "x")])),
      ("PORT_LOOP_STATUS_TABLE|A|2", .hash (Std.ExtTreeMap.ofList [("owner", "x")])),
      ("PORT_LOOP_STATUS_TABLE|B|1|x", .hash (Std.ExtTreeMap.ofList [("status", "discarding")])),
      ("PORT_LOOP_STATUS_TABLE|C|1", .hash (Std.ExtTreeMap.ofList [("status", "blocked")])),
      ("PORT_LOOP_STATUS_TABLE|D", .text "no port"),
      ("PORT_LOOP_STATUS_TABLE|E|1", .text "no hash")])]

def mixedDesired : StatusMap :=
  Std.ExtTreeMap.ofList
    [(PortRef.of "A" "1", PortStatus.discarding), (.of "A" "2", .forwarding),
      (.of "B" "1|x", .discarding), (.of "C" "1", .forwarding), (.of "F" "1", .discarding)]

theorem mixed_writes_four_of_five :
    mixed.server.faults = [] ∧
      (StatusStore.apply mixed mixedDesired).1 = .ok { examined := 5, written := 4 } ∧
      (StatusStore.apply mixed (mixedDesired.insert (.of "E" "1") .forwarding)).1 =
        .error wrongType := by
  have well : mixed.server.faults = [] := rfl
  have simulates : Simulates mixed { records := mixed.keyspace.statuses } :=
    (simulates_memory_store mixed well).2 _ (refines_statuses well)
  have formed : ∀ port ∈ (mixedDesired.insert (.of "E" "1") .forwarding).keys, port.WellFormed := by
    decide +kernel
  have free : ∀ port ∈ mixedDesired.keys, mixed.keyspace.HashOrAbsent (recordKey port) := by
    decide +kernel
  have text : ¬ mixed.keyspace.HashOrAbsent (recordKey (.of "E" "1")) := by decide +kernel
  refine ⟨well, ?_, ?_⟩
  · have counted : (StatusStore.apply ({ records := mixed.keyspace.statuses } : MemoryStore)
        mixedDesired).1 = .ok { examined := 5, written := 4 } := by decide +kernel
    have fits : mixedDesired.size < UInt64.size := by decide +kernel
    have done := simulates.applies mixedDesired
      (fun port inside => formed port (Std.ExtTreeMap.mem_keys.2
        (Std.ExtTreeMap.mem_insert.2 (.inr inside))))
      fun port inside => free port (Std.ExtTreeMap.mem_keys.2 inside)
    exact (done.2.1 fits).trans counted
  · refine (simulates.refuses _ (fun port inside => formed port (Std.ExtTreeMap.mem_keys.2 inside))
      fun all => text (all _ Std.ExtTreeMap.mem_insert_self)).1

end LoopGuard.Keyspace.RecordStore
