import LoopGuard.Keyspace.Basic
import Mathlib.Data.List.Nodup

/-!
# Fields in a keyspace

Hash commands work under a key that holds a hash or nothing. There a field has
the value that is held, and giving it another changes neither the other fields
nor the other keys. The commit script is refused exactly if one of its keys
holds something else; otherwise it counts the keys where the field had another
value, and the field ends with its value under each key.
-/

namespace LoopGuard.Keyspace

variable {keyspace : Keyspace} {key field value : String} {records : List (String × String)}

/-- No value of another type stands under the key. -/
def HashOrAbsent (keyspace : Keyspace) (key : String) : Prop :=
  ∀ text, keyspace[key]? ≠ some (.text text)

instance : Decidable (keyspace.HashOrAbsent key) :=
  match found : keyspace[key]? with
  | none => .isTrue fun _ held => nomatch found.symm.trans held
  | some (.hash _) => .isTrue fun _ held => nomatch found.symm.trans held
  | some (.text text) => .isFalse fun free => free text found

/-- The hash under a key; where there is none, it counts as empty. -/
def fieldsAt (keyspace : Keyspace) (key : String) : Fields :=
  match keyspace[key]? with
  | some (.hash fields) => fields
  | _ => ∅

/-- The value of a field, where a hash has it. -/
def held? (keyspace : Keyspace) (key field : String) : Option String :=
  (keyspace.fieldsAt key)[field]?

theorem fields_of_hashOrAbsent (accepted : keyspace.HashOrAbsent key) :
    keyspace.fields key = .ok (keyspace.fieldsAt key) := by
  unfold fields fieldsAt
  split
  next found => rw [found]
  next found => rw [found]
  next text held => exact absurd held (accepted text)

theorem fields_of_not_hashOrAbsent (refused : ¬ keyspace.HashOrAbsent key) :
    keyspace.fields key = .error {} := by
  obtain ⟨text, held⟩ := not_forall.1 refused
  rw [fields, not_not.1 held]

theorem mem_of_not_hashOrAbsent (refused : ¬ keyspace.HashOrAbsent key) : key ∈ keyspace := by
  obtain ⟨text, held⟩ := not_forall.1 refused
  exact Std.ExtTreeMap.isSome_getElem?_iff_mem.1 (by rw [not_not.1 held]; rfl)

theorem value?_of_hashOrAbsent (accepted : keyspace.HashOrAbsent key) :
    keyspace.value? key field = .ok (keyspace.held? key field) := by
  rw [value?, fields_of_hashOrAbsent accepted]
  rfl

theorem value?_of_not_hashOrAbsent (refused : ¬ keyspace.HashOrAbsent key) :
    keyspace.value? key field = .error {} := by
  rw [value?, fields_of_not_hashOrAbsent refused]
  rfl

/-- What is held is held under a key. -/
theorem mem_of_held? (held : keyspace.held? key field = some value) : key ∈ keyspace := by
  by_contra absent
  rw [held?, fieldsAt, Std.ExtTreeMap.getElem?_eq_none absent] at held
  exact nomatch held.symm.trans Std.ExtTreeMap.getElem?_empty

/-- Values that are a function of their key may be inserted in any order. -/
theorem getElem?_insertMany_of_forall {α β : Type} [DecidableEq α] [Ord α] [Std.TransOrd α]
    [Std.LawfulEqOrd α] {found : Std.ExtTreeMap α β} {entries : List (α × β)}
    {right : α → Option β} {a : α} (each : ∀ entry ∈ entries, right entry.1 = some entry.2) :
    (found.insertMany entries)[a]? =
      if a ∈ entries.map Prod.fst then right a else found[a]? := by
  induction entries generalizing found with
  | nil => simp
  | cons entry entries ih =>
    obtain ⟨first, value⟩ := entry
    have given : right first = some value := each (first, value) List.mem_cons_self
    rw [Std.ExtTreeMap.insertMany_cons, ih fun entry inside => each entry (.tail _ inside)]
    by_cases later : a ∈ entries.map Prod.fst
    · rw [if_pos later, if_pos (.tail _ later)]
    · by_cases same : first = a
      · subst same
        simp [later, given]
      · simp [later, same, Ne.symm same, Std.ExtTreeMap.getElem?_insert]

/-- Entries may be inserted as they are found, one after the other. -/
theorem insertMany_filterMap {α β γ : Type} [Ord α] [Std.TransOrd α]
    {found : Std.ExtTreeMap α β} {read? : γ → Option (α × β)} {list : List γ} :
    found.insertMany (list.filterMap read?) =
      list.foldl (fun found c => found.insertMany ([c].filterMap read?)) found := by
  induction list generalizing found with
  | nil => rfl
  | cons c list ih =>
    rw [List.foldl_cons, ← ih, ← Std.ExtTreeMap.insertMany_append, ← List.filterMap_append,
      List.singleton_append]

/-! ## Writing one field -/

/-- A field has its value under each of some keys, and nothing else has changed. -/
structure Writes (field : String) (records : List (String × String)) (before after : Keyspace) :
    Prop where
  held (key value : String) : (key, value) ∈ records → after.held? key field = some value
  accepts (key : String) : after.HashOrAbsent key ↔ before.HashOrAbsent key
  other_fields (key other : String) :
    other ≠ field → after.held? key other = before.held? key other
  other_keys (key : String) : key ∉ records.map Prod.fst → after[key]? = before[key]?

theorem Writes.nil : Writes field [] keyspace keyspace where
  held _ _ inside := nomatch inside
  accepts _ := Iff.rfl
  other_fields _ _ _ := rfl
  other_keys _ _ := rfl

/-- Keys written one by one, each once, are written together. -/
theorem Writes.cons {before between after : Keyspace}
    (first : Writes field [(key, value)] before between)
    (later : Writes field records between after) (fresh : key ∉ records.map Prod.fst) :
    Writes field ((key, value) :: records) before after where
  held other word inside := by
    cases inside with
    | head =>
      rw [held?, fieldsAt, later.other_keys key fresh]
      exact first.held key value List.mem_cons_self
    | tail _ inside => exact later.held other word inside
  accepts other := (later.accepts other).trans (first.accepts other)
  other_fields other word different :=
    (later.other_fields other word different).trans (first.other_fields other word different)
  other_keys other absent := by
    obtain ⟨different, absent⟩ := not_or.1 (mt List.mem_cons.2 absent)
    exact (later.other_keys other absent).trans (first.other_keys other (by simpa using different))

theorem exists_setField (accepted : keyspace.HashOrAbsent key) :
    ∃ after, keyspace.setField key field value = .ok after ∧
      Writes field [(key, value)] keyspace after := by
  let fields := (keyspace.fieldsAt key).insert field value
  have here : (keyspace.insert key (.hash fields))[key]? = some (.hash fields) := by simp
  have elsewhere (other : String) (different : other ≠ key) :
      (keyspace.insert key (.hash fields))[other]? = keyspace[other]? := by
    simp [Std.ExtTreeMap.getElem?_insert, different.symm]
  refine ⟨keyspace.insert key (.hash fields), ?_, ?_⟩
  · rw [setField, fields_of_hashOrAbsent accepted]
    rfl
  · constructor
    case held =>
      rintro _ _ (_ | ⟨_, ⟨⟩⟩)
      rw [held?, fieldsAt, here]
      exact Std.ExtTreeMap.getElem?_insert_self
    case accepts =>
      intro other
      by_cases same : other = key
      · subst same
        exact ⟨fun _ => accepted, fun _ text held => nomatch here.symm.trans held⟩
      · simp only [HashOrAbsent, elsewhere other same]
    case other_fields =>
      intro other word different
      by_cases same : other = key
      · subst same
        rw [held?, fieldsAt, here]
        simp [fields, Std.ExtTreeMap.getElem?_insert, different.symm, held?]
      · simp only [held?, fieldsAt, elsewhere other same]
    case other_keys =>
      intro other absent
      exact elsewhere other (by simpa using absent)

theorem exists_foldlM_setField (once : (records.map Prod.fst).Nodup)
    (accepted : ∀ record ∈ records, keyspace.HashOrAbsent record.1) :
    ∃ after, records.foldlM (fun keyspace (key, value) => keyspace.setField key field value)
      keyspace = .ok after ∧ Writes field records keyspace after := by
  induction records generalizing keyspace with
  | nil => exact ⟨keyspace, rfl, .nil⟩
  | cons record records ih =>
    obtain ⟨key, value⟩ := record
    obtain ⟨fresh, once⟩ := List.nodup_cons.1 once
    obtain ⟨between, set, first⟩ : ∃ between, keyspace.setField key field value = .ok between ∧
        Writes field [(key, value)] keyspace between :=
      exists_setField (accepted (key, value) List.mem_cons_self)
    obtain ⟨after, written, later⟩ := ih once fun record inside =>
      (first.accepts record.1).2 (accepted record (.tail _ inside))
    refine ⟨after, ?_, first.cons later fresh⟩
    simp only [List.foldlM_cons, set]
    exact written

/-! ## The commit script -/

section Filter

variable {α ε : Type} {p : α → Except ε Bool} {q : α → Bool} {list : List α}

theorem filterAuxM_eq_ok (ok : ∀ a ∈ list, p a = .ok (q a)) (found : List α) :
    list.filterAuxM p found = .ok ((list.filter q).reverse ++ found) := by
  induction list generalizing found with
  | nil => rfl
  | cons a list ih =>
    rw [List.filterAuxM, ok a List.mem_cons_self]
    refine (ih (fun a inside => ok a (.tail _ inside)) _).trans ?_
    cases held : q a <;> simp [held]

theorem filterM_eq_ok (ok : ∀ a ∈ list, p a = .ok (q a)) :
    list.filterM p = .ok (list.filter q) := by
  rw [List.filterM, filterAuxM_eq_ok ok]
  simp [bind, Except.bind, pure, Except.pure]

theorem filterM_eq_error {error : ε} (each : ∀ a ∈ list, p a = .ok (q a) ∨ p a = .error error)
    (one : ∃ a ∈ list, p a = .error error) : list.filterM p = .error error := by
  suffices aux : ∀ found, list.filterAuxM p found = .error error by
    rw [List.filterM, aux]
    rfl
  induction list with
  | nil => exact absurd one (by simp)
  | cons a list ih =>
    intro found
    rw [List.filterAuxM]
    rcases each a List.mem_cons_self with ok | failed
    · rw [ok]
      refine ih (fun a inside => each a (.tail _ inside)) ?_ _
      obtain ⟨b, inside, failed⟩ := one
      cases inside with
      | head => exact nomatch ok.symm.trans failed
      | tail _ inside => exact ⟨b, inside, failed⟩
    · rw [failed]
      rfl

end Filter

/-- Whether a field has another value than a record wants. -/
def differs (keyspace : Keyspace) (field : String) (record : String × String) : Bool :=
  keyspace.held? record.1 field ≠ some record.2

theorem differing_of_hashOrAbsent (accepted : ∀ record ∈ records, keyspace.HashOrAbsent record.1) :
    keyspace.differing field records = .ok (records.filter (keyspace.differs field)) := by
  refine filterM_eq_ok fun record inside => ?_
  simp only [value?_of_hashOrAbsent (accepted record inside)]
  rfl

theorem differing_of_not_hashOrAbsent
    (refused : ∃ record ∈ records, ¬ keyspace.HashOrAbsent record.1) :
    keyspace.differing field records = .error {} := by
  refine filterM_eq_error (q := keyspace.differs field) (fun record _ => ?_) ?_
  · by_cases accepted : keyspace.HashOrAbsent record.1
    · simp only [value?_of_hashOrAbsent accepted]
      exact .inl rfl
    · simp only [value?_of_not_hashOrAbsent accepted]
      exact .inr rfl
  · obtain ⟨record, inside, refused⟩ := refused
    refine ⟨record, inside, ?_⟩
    simp only [value?_of_not_hashOrAbsent refused]
    rfl

/-- Records that need no writing may be counted among the written ones. -/
theorem Writes.of_filter_differs {before after : Keyspace} (once : (records.map Prod.fst).Nodup)
    (writes : Writes field (records.filter (before.differs field)) before after) :
    Writes field records before after where
  held key value inside := by
    by_cases another : before.differs field (key, value) = true
    · exact writes.held key value (List.mem_filter.2 ⟨inside, another⟩)
    · have absent : key ∉ (records.filter (before.differs field)).map Prod.fst := by
        intro among
        obtain ⟨⟨_, other⟩, changed, rfl⟩ := List.mem_map.1 among
        obtain ⟨present, differs⟩ := List.mem_filter.1 changed
        obtain rfl : other = value :=
          congrArg Prod.snd (List.inj_on_of_nodup_map once present inside rfl)
        exact another differs
      have same : before.held? key field = some value := by simpa [differs] using another
      rwa [held?, fieldsAt, writes.other_keys key absent]
  accepts := writes.accepts
  other_fields := writes.other_fields
  other_keys key absent := writes.other_keys key fun among =>
    absent ((List.filter_sublist.map Prod.fst).subset among)

theorem writeAll_of_hashOrAbsent (once : (records.map Prod.fst).Nodup)
    (accepted : ∀ record ∈ records, keyspace.HashOrAbsent record.1) :
    ∃ after, keyspace.writeAll field records =
        .ok ((records.filter (keyspace.differs field)).length, after) ∧
      Writes field records keyspace after := by
  let changed := records.filter (keyspace.differs field)
  obtain ⟨after, written, writes⟩ : ∃ after,
      changed.foldlM (fun keyspace (key, value) => keyspace.setField key field value) keyspace =
        .ok after ∧
      Writes field changed keyspace after :=
    exists_foldlM_setField (once.sublist (List.filter_sublist.map Prod.fst)) fun record inside =>
      accepted record (List.mem_of_mem_filter inside)
  refine ⟨after, ?_, writes.of_filter_differs once⟩
  rw [writeAll, differing_of_hashOrAbsent accepted]
  exact congrArg (fun result => result >>= fun after => pure (_, after)) written

theorem writeAll_of_not_hashOrAbsent
    (refused : ∃ record ∈ records, ¬ keyspace.HashOrAbsent record.1) :
    keyspace.writeAll field records = .error {} := by
  rw [writeAll, differing_of_not_hashOrAbsent refused]
  rfl

end LoopGuard.Keyspace
