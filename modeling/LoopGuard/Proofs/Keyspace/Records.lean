import LoopGuard.Keyspace.RecordStore
import LoopGuard.Proofs.Keyspace.Glob
import LoopGuard.Proofs.Keyspace.Hashes
import LoopGuard.Proofs.Status.Records
import LoopGuard.Proofs.Topology.StoreKey

/-!
# The statuses that a keyspace records

A record key is that of one well-formed port, which is read off it
(`portOfKey?_eq_some_iff`). So a keyspace stands for a map of statuses: each
well-formed port has the known status that the status field under its record key
holds. Reading the records under any keys gives this map as long as no such key is
left out, in whatever order they come.
-/

namespace LoopGuard

theorem PortStatus.ofText?_eq_some_iff {word : String} {status : PortStatus} :
    ofText? word = some status ↔ word = status.text := by
  rw [ofText?]
  split
  next forwards => cases status <;> simp [forwards, text]
  next =>
    split
    next discards => cases status <;> simp [discards, text]
    next => cases status <;> simp_all

namespace Keyspace

variable {keyspace : Keyspace} {key : String} {port other : PortRef} {status : PortStatus}

theorem recordKey_inj (wellFormed : port.WellFormed) (otherFormed : other.WellFormed)
    (same : recordKey port = recordKey other) : port = other := by
  refine wellFormed.storeKey_inj otherFormed ?_
  simpa [recordKey, statusKey] using same

/-- A record key is the key of the well-formed port that is read off it. -/
theorem portOfKey?_eq_some_iff :
    RecordStore.portOfKey? key = some port ↔ port.WellFormed ∧ recordKey port = key := by
  have split (rest : String) : statusKey "" ++ rest = statusKey rest := by
    simp [statusKey, String.append_assoc]
  rw [RecordStore.portOfKey?, Option.bind_eq_some_iff]
  simp only [Text.withoutPrefix?_eq_some_iff, PortRef.ofStoreKey?_eq_some_iff, split]
  constructor
  · rintro ⟨_, rfl, wellFormed, rfl⟩
    exact ⟨wellFormed, rfl⟩
  · rintro ⟨wellFormed, rfl⟩
    exact ⟨port.storeKey, rfl, wellFormed, rfl⟩

/-- Store keys and the well-formed ports correspond one to one: a port is read back
from its store key, and from its record key, exactly if it is well-formed, a key that
names a port is the store key of that port, and the keys that name none are those
without a bar, with nothing before the first bar or with nothing after it. So no two
well-formed ports share a store key or a record key. -/
theorem keys_correspond_to_ports :
    (∀ port : PortRef,
      (PortRef.ofStoreKey? port.storeKey = some port ↔ port.WellFormed) ∧
        (RecordStore.portOfKey? (recordKey port) = some port ↔ port.WellFormed)) ∧
      (∀ (key : String) (port : PortRef), PortRef.ofStoreKey? key = some port →
        port.storeKey = key ∧ port.WellFormed) ∧
      (∀ key : String, PortRef.ofStoreKey? key = none ↔
        '|' ∉ key.toList ∨ (∃ name, key.toList = '|' :: name) ∨
          ∃ node, key.toList = node ++ ['|'] ∧ '|' ∉ node) ∧
      ∀ port other : PortRef, port.WellFormed → other.WellFormed → port ≠ other →
        port.storeKey ≠ other.storeKey ∧ recordKey port ≠ recordKey other := by
  refine ⟨fun port => ⟨?_, ?_⟩, ?_, fun key => PortRef.ofStoreKey?_eq_none_iff, ?_⟩
  · rw [PortRef.ofStoreKey?_eq_some_iff]
    exact and_iff_left rfl
  · rw [portOfKey?_eq_some_iff]
    exact and_iff_left rfl
  · intro key port found
    obtain ⟨wellFormed, same⟩ := PortRef.ofStoreKey?_eq_some_iff.1 found
    exact ⟨same, wellFormed⟩
  · intro port other wellFormed otherFormed apart
    exact ⟨fun same => apart (wellFormed.storeKey_inj otherFormed same),
      fun same => apart (recordKey_inj wellFormed otherFormed same)⟩

/-- The bar after the switch is the first one, whatever bars the name of the port has;
a switch with a bar in its name would take the key of another switch's port. -/
theorem port_with_bar_is_read_back :
    let port := PortRef.of "openflow:1" "2|3"
    let short := PortRef.of "openflow:1" "2"
    let barred := PortRef.of "openflow:1|2" "3"
    port.WellFormed ∧ short.WellFormed ∧ port ≠ short ∧ ¬ barred.WellFormed ∧
      barred.storeKey = port.storeKey ∧ PortRef.ofStoreKey? port.storeKey = some port ∧
      PortRef.ofStoreKey? "openflow:1|" = none ∧
      port.storeKey ≠ short.storeKey ∧ recordKey port ≠ recordKey short := by
  intro port short barred
  obtain ⟨reads, back, none, apart⟩ := keys_correspond_to_ports
  have formed : port.WellFormed := by decide +kernel
  have shortFormed : short.WellFormed := by decide +kernel
  have other : port ≠ short := by decide
  have same : barred.storeKey = port.storeKey := by decide +kernel
  have found : PortRef.ofStoreKey? port.storeKey = some port := (reads port).1.2 formed
  refine ⟨formed, shortFormed, other, ?_, same, found, ?_, apart port short formed shortFormed other⟩
  · -- the key is read as that of the first port
    intro barredFormed
    have found' : PortRef.ofStoreKey? barred.storeKey = some barred := (reads barred).1.2 barredFormed
    rw [same, found] at found'
    exact absurd (Option.some.inj found') (by decide)
  · exact (none "openflow:1|").2 (.inr (.inr ⟨"openflow:1".toList, by decide, by decide⟩))

/-! ## The statuses on record -/

/-- The known status that the record of a port holds. -/
def status? (keyspace : Keyspace) (port : PortRef) : Option PortStatus :=
  (keyspace.held? (recordKey port) statusField).bind PortStatus.ofText?

/-- The port and the status that the record under a key is about. -/
def record? (keyspace : Keyspace) (key : String) : Option (PortRef × PortStatus) :=
  (RecordStore.portOfKey? key).bind fun port => (keyspace.status? port).map (port, ·)

/-- Statuses found so far, with those that the records under some keys add. -/
def read (keyspace : Keyspace) (found : StatusMap) (listed : List String) : StatusMap :=
  found.insertMany (listed.filterMap keyspace.record?)

/-- The statuses on record. -/
def statuses (keyspace : Keyspace) : StatusMap := keyspace.read ∅ keyspace.keys

theorem status?_eq_some_iff :
    keyspace.status? port = some status ↔
      keyspace.held? (recordKey port) statusField = some status.text := by
  simp [status?, Option.bind_eq_some_iff, PortStatus.ofText?_eq_some_iff]

theorem record?_eq_some_iff :
    keyspace.record? key = some (port, status) ↔
      (port.WellFormed ∧ recordKey port = key) ∧ keyspace.status? port = some status := by
  simp [record?, Option.bind_eq_some_iff, portOfKey?_eq_some_iff]

/-- Reading finds the statuses of all well-formed ports, if no key of theirs is
left out. -/
theorem getElem?_read {listed : List String}
    (covers : ∀ port : PortRef, port.WellFormed → recordKey port ∈ keyspace →
      recordKey port ∈ listed) :
    (keyspace.read ∅ listed)[port]? = if port.WellFormed then keyspace.status? port else none := by
  have each : ∀ record ∈ listed.filterMap keyspace.record?,
      keyspace.status? record.1 = some record.2 := by
    intro record inside
    obtain ⟨key, -, found⟩ := List.mem_filterMap.1 inside
    exact (record?_eq_some_iff.1 found).2
  rw [read, getElem?_insertMany_of_forall each, Std.ExtTreeMap.getElem?_empty]
  split
  next found =>
    obtain ⟨⟨_, status⟩, inside, rfl⟩ := List.mem_map.1 found
    obtain ⟨key, -, found⟩ := List.mem_filterMap.1 inside
    rw [if_pos (record?_eq_some_iff.1 found).1.1]
  next absent =>
    split
    next wellFormed =>
      refine (Option.eq_none_iff_forall_not_mem.2 fun status recorded => absent ?_).symm
      have listed := covers port wellFormed (mem_of_held? (status?_eq_some_iff.1 recorded))
      exact List.mem_map.2 ⟨(port, status), List.mem_filterMap.2
        ⟨recordKey port, listed, record?_eq_some_iff.2 ⟨⟨wellFormed, rfl⟩, recorded⟩⟩, rfl⟩
    next => rfl

theorem getElem?_statuses :
    keyspace.statuses[port]? = if port.WellFormed then keyspace.status? port else none :=
  getElem?_read fun _ _ inside => Std.ExtTreeMap.mem_keys.2 inside

theorem getElem?_statuses_eq_some_iff :
    keyspace.statuses[port]? = some status ↔
      port.WellFormed ∧ keyspace.held? (recordKey port) statusField = some status.text := by
  rw [getElem?_statuses, ← status?_eq_some_iff]
  split
  next wellFormed => exact (and_iff_right wellFormed).symm
  next malformed => exact ⟨nofun, fun both => absurd both.1 malformed⟩

theorem wellFormed_of_mem_statuses (inside : port ∈ keyspace.statuses) : port.WellFormed :=
  (getElem?_statuses_eq_some_iff.1 (Std.ExtTreeMap.getElem?_eq_some_getElem inside)).1

/-- The pattern of the status table matches the key of every record. -/
theorem recordKey_mem_keysMatching (inside : recordKey port ∈ keyspace) :
    recordKey port ∈ keyspace.keysMatching statusPattern := by
  refine List.mem_filter.2 ⟨Std.ExtTreeMap.mem_keys.2 inside, ?_⟩
  rw [statusPattern_eq, isMatch_patternOfPrefix]
  exact ⟨port.storeKey, by simp [recordKey, statusKey, String.append_assoc]⟩

/-- Reading the matching keys finds every status, in whatever order they come. -/
theorem read_of_perm {listed : List String}
    (listing : listed.Perm (keyspace.keysMatching statusPattern)) :
    keyspace.read ∅ listed = keyspace.statuses := by
  refine Std.ExtTreeMap.ext_getElem? fun port => ?_
  rw [getElem?_statuses]
  exact getElem?_read fun port _ inside => listing.mem_iff.2 (recordKey_mem_keysMatching inside)

/-! ## Writing statuses -/

variable {desired : StatusMap}

theorem mem_of_getElem? (wanted : desired[port]? = some status) : port ∈ desired :=
  Std.ExtTreeMap.isSome_getElem?_iff_mem.1 (by rw [wanted]; rfl)

theorem mem_recordsOf {record : String × String} :
    record ∈ RecordStore.recordsOf desired ↔
      ∃ (port : PortRef) (status : PortStatus),
        desired[port]? = some status ∧ (recordKey port, status.text) = record := by
  simp [RecordStore.recordsOf]

theorem nodup_recordsOf (wellFormed : ∀ port ∈ desired, port.WellFormed) :
    ((RecordStore.recordsOf desired).map Prod.fst).Nodup := by
  have keys : (RecordStore.recordsOf desired).map Prod.fst = desired.keys.map recordKey := by
    simp [RecordStore.recordsOf, ← Std.ExtTreeMap.map_fst_toList_eq_keys]
  rw [keys]
  refine List.Nodup.map_on (fun port inside other among same => ?_) Std.ExtTreeMap.nodup_keys
  exact recordKey_inj (wellFormed port (Std.ExtTreeMap.mem_keys.1 inside))
    (wellFormed other (Std.ExtTreeMap.mem_keys.1 among)) same

/-- A record is to be written if the status that it is about differs. -/
theorem differs_recordKey (wellFormed : port.WellFormed) :
    keyspace.differs statusField (recordKey port, status.text) =
      decide (keyspace.statuses[port]? ≠ some status) := by
  rw [differs, getElem?_statuses, if_pos wellFormed]
  simp only [ne_eq, status?_eq_some_iff]

theorem length_filter_differs (wellFormed : ∀ port ∈ desired, port.WellFormed) :
    ((RecordStore.recordsOf desired).filter (keyspace.differs statusField)).length =
      (desired.differing keyspace.statuses).length := by
  rw [RecordStore.recordsOf, List.filter_map, List.length_map, StatusMap.differing]
  refine congrArg List.length (List.filter_congr fun record inside => ?_)
  have wanted := Std.ExtTreeMap.mem_toList_iff_getElem?_eq_some.1 inside
  exact differs_recordKey (wellFormed record.1 (mem_of_getElem? wanted))

theorem Writes.statuses_eq {before after : Keyspace}
    (wellFormed : ∀ port ∈ desired, port.WellFormed)
    (writes : Writes statusField (RecordStore.recordsOf desired) before after) :
    after.statuses = before.statuses.overwrite (desired.differing before.statuses) := by
  refine Std.ExtTreeMap.ext_getElem? fun port => ?_
  rw [StatusMap.getElem?_overwrite_differing, getElem?_statuses, getElem?_statuses]
  cases wanted : desired[port]? with
  | some status =>
    have formed : port.WellFormed := wellFormed port (mem_of_getElem? wanted)
    have held := writes.held _ _ (mem_recordsOf.2 ⟨port, status, wanted, rfl⟩)
    rw [if_pos formed, status?_eq_some_iff.2 held, Option.some_or]
  | none =>
    rw [Option.none_or]
    split
    next formed =>
      have absent : recordKey port ∉ (RecordStore.recordsOf desired).map Prod.fst := by
        intro among
        obtain ⟨record, inside, same⟩ := List.mem_map.1 among
        obtain ⟨other, status, wanted', rfl⟩ := mem_recordsOf.1 inside
        obtain rfl := recordKey_inj (wellFormed other (mem_of_getElem? wanted')) formed same
        exact nomatch wanted.symm.trans wanted'
      rw [status?, status?, held?, held?, fieldsAt, fieldsAt, writes.other_keys _ absent]
    next => rfl

end Keyspace

end LoopGuard
