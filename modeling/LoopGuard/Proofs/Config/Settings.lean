import LoopGuard.Config.Read
import LoopGuard.Config.Write
import LoopGuard.Proofs.Toml.Document

/-!
# Settings as entries of a document

Each given setting is written as a text or as an integer under its name, and is
read back from the entries of its section. A section without settings is read
the same when it is missing. Main statement: `Given.ofDocument?_document`.
-/

namespace LoopGuard.Config

open Toml (Value Entries Denotes)

/-- A setting as it is written. -/
inductive Setting where
  | text (value : String)
  | integer (value : Int)

namespace Setting

def written : Setting → List Char
  | .text value => writeText value
  | .integer value => writeInt value

def toValue : Setting → Value
  | .text value => .text value
  | .integer value => .integer value

theorem isTokenChar_of_mem_writeInt {value : Int} :
    ∀ c ∈ writeInt value, Toml.isTokenChar c = true := by
  have decimal {n : Nat} : ∀ c ∈ writeNat n, Toml.isTokenChar c = true := fun c inside =>
    Toml.isTokenChar_of_isDigit (Text.isDigit_of_mem_decimals inside)
  intro c inside
  cases value with
  | ofNat n => exact decimal c inside
  | negSucc n =>
    rcases List.mem_cons.1 inside with rfl | inside
    · rfl
    · exact decimal c inside

theorem integer?_writeInt (value : Int) : Toml.integer? (writeInt value) = some value := by
  cases value with
  | ofNat n => exact Toml.integer?_decimals n
  | negSucc n => exact Toml.integer?_minus_decimals (n + 1)

theorem denotes (setting : Setting) : Denotes setting.written setting.toValue := by
  cases setting with
  | text value => exact Toml.denotes_quote value
  | integer value =>
    exact Toml.denotes_of_integer? isTokenChar_of_mem_writeInt (integer?_writeInt value)

end Setting

/-- The settings of a section under their names. -/
abbrev Fields := List (String × Setting)

/-- The settings of all sections. -/
abbrev SectionFields := List (String × Fields)

/-- The setting under a name, if it is given. -/
def named {α : Type} (make : α → Setting) (name : String) (value : Option α) : Fields :=
  (value.map fun value => (name, make value)).toList

def Fields.entries (fields : Fields) : Entries :=
  fields.map fun (name, setting) => (name, setting.toValue)

theorem Fields.map_fst_entries (fields : Fields) :
    fields.entries.map Prod.fst = fields.map Prod.fst := by
  rw [entries, List.map_map]
  rfl

def Fields.written (fields : Fields) : List WrittenField :=
  fields.map fun (name, setting) => (name, setting.written)

namespace Given

def Topology.fields (given : Topology) : Fields :=
  named .text "topology_id" given.topologyId ++
  (named (.integer ·.toNat) "graph_refresh_delay_ms" given.refreshDelay ++
  (named (.integer ·.toNat) "max_reschedules" given.maxReschedules ++
  named .text "host_link_marker" given.hostMarker))

def Database.fields (given : Database) : Fields :=
  named .text "redis_host" given.host ++
  (named (.integer ·.toNat) "redis_port" given.port ++
  (named (.integer ·.toInt) "appl_db" given.links ++
  named (.integer ·.toInt) "state_db" given.statuses))

def Writer.fields (given : Writer) : Fields :=
  named (.integer ·.toNat) "max_attempts" given.maxAttempts ++
  named (.integer ·.toNat) "retry_backoff_ms" given.retryBackoff

def Feed.fields (given : Feed) : Fields :=
  named (.integer ·.toNat) "poll_interval_ms" given.pollInterval

/-- The settings that are given, section by section. -/
def settings (given : Given) : SectionFields :=
  [("topology", given.topology.fields), ("database", given.database.fields),
    ("writer", given.writer.fields), ("feed", given.feed.fields)]

end Given

theorem written_append (fields later : Fields) :
    (fields ++ later).written = fields.written ++ later.written :=
  List.map_append

theorem written_named {α : Type} (make : α → Setting) (name : String) (value : Option α) :
    (named make name value).written =
      writeField? (fun value => (make value).written) name value := by
  cases value <;> rfl

theorem sections_eq (given : Given) :
    given.sections = given.settings.map fun (name, fields) => (name, fields.written) := by
  simp only [Given.sections, Given.settings, Given.Topology.fields, Given.Database.fields,
    Given.Writer.fields, Given.Feed.fields, List.map_cons, List.map_nil, written_append,
    written_named, List.append_assoc]
  rfl

/-! ## Reading fields -/

section fields

variable {α : Type} {read : Value → Option α} {make : α → Setting}

@[simp]
theorem get?_append_named (make : α → Setting) (name key : String) (value : Option α)
    (later : Fields) :
    (named make name value ++ later).entries.get? key =
      if key = name then (value.map fun value => (make value).toValue).or (later.entries.get? key)
      else later.entries.get? key := by
  cases value with
  | none => simp [named]
  | some value =>
    have same : (named make name (some value) ++ later).entries.get? key =
      List.lookup key ((name, (make value).toValue) :: later.entries) := rfl
    rw [same, List.lookup_cons]
    by_cases here : key = name
    · simp [here]
    · rw [if_neg here, beq_false_of_ne here]
      rfl

@[simp]
theorem get?_named (make : α → Setting) (name key : String) (value : Option α) :
    (named make name value).entries.get? key =
      if key = name then value.map fun value => (make value).toValue else none := by
  have alone := get?_append_named make name key value []
  have none : Entries.get? (Fields.entries []) key = none := rfl
  rwa [List.append_nil, none, Option.or_none] at alone

/-- A field is read as the setting that its section gives, or as missing. -/
theorem field?_of_get? {entries : Entries} {name : String} (value : Option α)
    (reads : ∀ value, read (make value).toValue = some value)
    (found : entries.get? name = value.map fun value => (make value).toValue) :
    field? read entries name = some value := by
  rw [field?, found]
  cases value with
  | none => rfl
  | some value => exact congrArg (Option.map some) (reads value)

theorem asText?_text (value : String) : asText? (Setting.text value).toValue = some value := rfl

theorem asNatBelow?_of_lt {bound n : Nat} (below : n < bound) :
    asNatBelow? bound (Setting.integer n).toValue = some n := by
  rw [Setting.toValue, asNatBelow?, if_pos (by omega), Int.toNat_natCast]

theorem asUInt64?_toNat (value : UInt64) :
    asUInt64? (Setting.integer value.toNat).toValue = some value := by
  rw [asUInt64?, asNatBelow?_of_lt value.toNat_lt_size, Option.map_some, UInt64.ofNat_toNat]

theorem asUInt32?_toNat (value : UInt32) :
    asUInt32? (Setting.integer value.toNat).toValue = some value := by
  rw [asUInt32?, asNatBelow?_of_lt value.toNat_lt_size, Option.map_some, UInt32.ofNat_toNat]

theorem asUInt16?_toNat (value : UInt16) :
    asUInt16? (Setting.integer value.toNat).toValue = some value := by
  rw [asUInt16?, asNatBelow?_of_lt value.toNat_lt_size, Option.map_some, UInt16.ofNat_toNat]

theorem asInt64?_toInt (value : Int64) :
    asInt64? (Setting.integer value.toInt).toValue = some value := by
  have bounds := And.intro value.minValue_le_toInt value.toInt_le
  rw [Setting.toValue, asInt64?, if_pos bounds, Int64.ofInt_toInt]

end fields

namespace Given

theorem Topology.read?_fields (given : Topology) : read? given.fields.entries = some given := by
  rw [read?, field?_of_get? given.topologyId asText?_text (by simp [fields]),
    field?_of_get? given.refreshDelay asUInt64?_toNat (by simp [fields]),
    field?_of_get? given.maxReschedules asUInt32?_toNat (by simp [fields]),
    field?_of_get? given.hostMarker asText?_text (by simp [fields])]
  rfl

theorem Database.read?_fields (given : Database) : read? given.fields.entries = some given := by
  rw [read?, field?_of_get? given.host asText?_text (by simp [fields]),
    field?_of_get? given.port asUInt16?_toNat (by simp [fields]),
    field?_of_get? given.links asInt64?_toInt (by simp [fields]),
    field?_of_get? given.statuses asInt64?_toInt (by simp [fields])]
  rfl

theorem Writer.read?_fields (given : Writer) : read? given.fields.entries = some given := by
  rw [read?, field?_of_get? given.maxAttempts asUInt32?_toNat (by simp [fields]),
    field?_of_get? given.retryBackoff asUInt64?_toNat (by simp [fields])]
  rfl

theorem Feed.read?_fields (given : Feed) : read? given.fields.entries = some given := by
  rw [read?, field?_of_get? given.pollInterval asUInt64?_toNat (by simp [fields])]
  rfl

end Given

/-! ## Reading sections -/

/-- The names of the sections and of their fields. -/
def schema : List (String × List String) :=
  [("topology", Given.Topology.names), ("database", Given.Database.names),
    ("writer", Given.Writer.names), ("feed", Given.Feed.names)]

theorem bare_and_nodup_of_mem_schema : ∀ entry ∈ schema,
    Toml.IsBare entry.1 ∧ entry.2.Nodup ∧ ∀ name ∈ entry.2, Toml.IsBare name := by
  simp [schema, Given.Topology.names, Given.Database.names, Given.Writer.names, Given.Feed.names,
    Toml.IsBare, Toml.isBareKeyChar]

theorem keys_named {α : Type} (make : α → Setting) (name : String) (value : Option α) :
    ((named make name value).map Prod.fst).Sublist [name] := by
  cases value with
  | none => exact List.nil_sublist _
  | some value => exact List.Sublist.refl _

theorem keys_append {fields later : Fields} {names others : List String}
    (first : (fields.map Prod.fst).Sublist names) (second : (later.map Prod.fst).Sublist others) :
    ((fields ++ later).map Prod.fst).Sublist (names ++ others) := by
  rw [List.map_append]
  exact first.append second

namespace Given

variable (given : Given)

theorem Topology.keys_fields (given : Topology) : (given.fields.map Prod.fst).Sublist names :=
  keys_append (keys_named ..) (keys_append (keys_named ..)
    (keys_append (keys_named ..) (keys_named ..)))

theorem Database.keys_fields (given : Database) : (given.fields.map Prod.fst).Sublist names :=
  keys_append (keys_named ..) (keys_append (keys_named ..)
    (keys_append (keys_named ..) (keys_named ..)))

theorem Writer.keys_fields (given : Writer) : (given.fields.map Prod.fst).Sublist names :=
  keys_append (keys_named ..) (keys_named ..)

theorem Feed.keys_fields (given : Feed) : (given.fields.map Prod.fst).Sublist names :=
  keys_named ..

theorem exists_mem_schema {part : String × Fields} (inside : part ∈ given.settings) :
    ∃ names, (part.1, names) ∈ schema ∧ (part.2.map Prod.fst).Sublist names := by
  simp only [settings, List.mem_cons, List.not_mem_nil, or_false] at inside
  rcases inside with rfl | rfl | rfl | rfl
  · exact ⟨Topology.names, by simp [schema], given.topology.keys_fields⟩
  · exact ⟨Database.names, by simp [schema], given.database.keys_fields⟩
  · exact ⟨Writer.names, by simp [schema], given.writer.keys_fields⟩
  · exact ⟨Feed.names, by simp [schema], given.feed.keys_fields⟩

theorem map_fst_settings : given.settings.map Prod.fst = names := rfl

end Given

/-- The sections with the given settings as a document has them. -/
def SectionFields.sections (settings : SectionFields) : Toml.Sections :=
  settings.map fun (name, fields) => (name, fields.entries)

/-- The document of these settings. -/
def SectionFields.document (settings : SectionFields) : Entries := settings.sections.toEntries

theorem SectionFields.document_cons (part : String × Fields) (settings : SectionFields) :
    document (part :: settings) =
      (part.1, .table .defined part.2.entries) :: document settings :=
  rfl

theorem SectionFields.map_fst_document (settings : SectionFields) :
    settings.document.map Prod.fst = settings.map Prod.fst := by
  induction settings with
  | nil => rfl
  | cons part settings ih => rw [document_cons, List.map_cons, List.map_cons, ih]

theorem SectionFields.get?_document_filter {settings : SectionFields} {name : String}
    {fields : Fields} (keeps : String → Bool) (distinct : (settings.map Prod.fst).Nodup)
    (inside : (name, fields) ∈ settings) :
    (document (settings.filter fun part => keeps part.1)).get? name =
      if keeps name then some (.table .defined fields.entries) else none := by
  induction settings with
  | nil => cases inside
  | cons part settings ih =>
    rw [List.map_cons, List.nodup_cons] at distinct
    rcases List.mem_cons.1 inside with rfl | inside
    · by_cases kept : keeps name = true
      · rw [List.filter_cons, if_pos kept, document_cons, Entries.get?, List.lookup_cons_self,
          if_pos kept]
      · rw [List.filter_cons, if_neg kept, if_neg kept]
        refine Entries.get?_eq_none fun found => distinct.1 ?_
        rw [map_fst_document] at found
        exact (List.filter_sublist.map Prod.fst).subset found
    · have other : name ≠ part.1 := fun same =>
        distinct.1 (same ▸ List.mem_map_of_mem (f := Prod.fst) inside)
      rw [← ih distinct.2 inside]
      by_cases kept : keeps part.1 = true
      · rw [List.filter_cons, if_pos kept, document_cons, Entries.get?, List.lookup_cons,
          beq_false_of_ne other]
        rfl
      · rw [List.filter_cons, if_neg kept]

theorem Given.bare_settings (given : Given) :
    ∀ part ∈ given.settings, Toml.IsBare part.1 ∧ ∀ field ∈ part.2, Toml.IsBare field.1 := by
  intro part inside
  obtain ⟨names, entry, known⟩ := given.exists_mem_schema inside
  obtain ⟨bare, _, bareNames⟩ := bare_and_nodup_of_mem_schema _ entry
  exact ⟨bare, fun field found => bareNames _ (known.subset (List.mem_map_of_mem found))⟩

theorem Given.distinct_sections (given : Given) (keeps : String → Bool) :
    (SectionFields.sections (given.settings.filter fun part => keeps part.1)).Distinct where
  names := by
    have distinct : (given.settings.map Prod.fst).Nodup := by
      rw [map_fst_settings]
      decide
    rw [SectionFields.sections, List.map_map]
    exact distinct.sublist (List.filter_sublist.map Prod.fst)
  keys := by
    intro section_ inside
    obtain ⟨part, found, rfl⟩ := List.mem_map.1 inside
    obtain ⟨names, entry, known⟩ := given.exists_mem_schema (List.mem_of_mem_filter found)
    rw [Fields.map_fst_entries]
    exact (bare_and_nodup_of_mem_schema _ entry).2.1.sublist known

theorem sectionEntries?_of_named {names : List String} {entries : Entries}
    (named : ∀ entry ∈ entries, entry.1 ∈ names) :
    sectionEntries? names (.table .defined entries) = some entries := by
  refine if_pos (List.all_eq_true.2 fun entry inside => ?_)
  exact Bool.or_eq_true_iff.2 (.inl (List.contains_iff_mem.2 (named entry inside)))

theorem section?_of_get? {α : Type} {read : Entries → Option α} {empty value : α}
    {names : List String} {document : Entries} {name : String} {fields : Fields} {kept : Bool}
    (found : document.get? name = if kept then some (.table .defined fields.entries) else none)
    (known : (fields.map Prod.fst).Sublist names) (reads : read fields.entries = some value)
    (readsNone : read [] = some empty)
    (missing : kept = false → fields = []) : section? names read empty document name =
      some value := by
  rw [section?, found]
  cases kept with
  | true =>
    have named : ∀ entry ∈ fields.entries, entry.1 ∈ names := by
      intro entry inside
      have key := List.mem_map_of_mem (f := Prod.fst) inside
      rw [fields.map_fst_entries] at key
      exact known.subset key
    rw [if_pos rfl]
    dsimp only
    rw [sectionEntries?_of_named named, Option.bind_some, reads]
  | false =>
    rw [missing rfl] at reads
    exact readsNone.symm.trans reads

/-- The given settings are read from their document, from which sections without settings may be
missing. -/
theorem Given.ofDocument?_document (given : Given) (keeps : String → Bool)
    (missing : ∀ part ∈ given.settings, keeps part.1 = false → part.2 = []) :
    ofDocument? (SectionFields.document (given.settings.filter fun part => keeps part.1)) =
      some given := by
  have distinct : (given.settings.map Prod.fst).Nodup := by
    rw [map_fst_settings]
    decide
  have named : ∀ entry ∈ SectionFields.document (given.settings.filter fun part => keeps part.1),
      entry.1 ∈ names := by
    intro entry inside
    have key := List.mem_map_of_mem (f := Prod.fst) inside
    rw [SectionFields.map_fst_document] at key
    rw [← map_fst_settings given]
    exact (List.filter_sublist.map Prod.fst).subset key
  have found {name : String} {fields : Fields} (inside : (name, fields) ∈ given.settings) :=
    SectionFields.get?_document_filter keeps distinct inside
  have inTopology : ("topology", given.topology.fields) ∈ given.settings := by simp [settings]
  have topology := section?_of_get? (found inTopology) given.topology.keys_fields
    given.topology.read?_fields rfl (missing _ inTopology)
  have inDatabase : ("database", given.database.fields) ∈ given.settings := by simp [settings]
  have database := section?_of_get? (found inDatabase) given.database.keys_fields
    given.database.read?_fields rfl (missing _ inDatabase)
  have inWriter : ("writer", given.writer.fields) ∈ given.settings := by simp [settings]
  have writer := section?_of_get? (found inWriter) given.writer.keys_fields
    given.writer.read?_fields rfl (missing _ inWriter)
  have inFeed : ("feed", given.feed.fields) ∈ given.settings := by simp [settings]
  have feed := section?_of_get? (found inFeed) given.feed.keys_fields
    given.feed.read?_fields rfl (missing _ inFeed)
  rw [ofDocument?, topology, database, writer, feed]
  refine if_pos (List.all_eq_true.2 fun entry inside => ?_)
  exact Bool.or_eq_true_iff.2 (.inl (List.contains_iff_mem.2 (named entry inside)))

end LoopGuard.Config
