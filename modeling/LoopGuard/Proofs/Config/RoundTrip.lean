import LoopGuard.Proofs.Config.Settings

/-!
# Saving and loading

A saved configuration has a header for each section, a line for each of its
fields, and empty lines between the sections. When lines are deleted, but no
header that a field is left under, loading gives the fields that are left, and
the defaults of the others. Main statement: `load_kept_lines`.
-/

namespace LoopGuard.Config

open Toml (Carries)

/-! ## Lines -/

/-- What a line of a saved configuration is for. The line of a field runs on as
far as its text does. -/
inductive Line where
  | gap (before : String)
  | header (part : String)
  | field (part name : String)
deriving DecidableEq, Repr

/-- The lines with their texts. -/
abbrev Lines := List (Line × List Char)

def Lines.text (lines : Lines) : String := String.ofList (lines.flatMap Prod.snd)

def sectionLines (part : WrittenSection) : Lines :=
  (.header part.1, '[' :: part.1.toList ++ [']', '\n']) ::
    part.2.map fun field => (.field part.1 field.1, field.line)

def documentLines : List WrittenSection → Lines
  | [] => []
  | [part] => sectionLines part
  | part :: next :: rest =>
    sectionLines part ++ (.gap next.1, ['\n']) :: documentLines (next :: rest)

/-- The lines of a configuration as it is saved. -/
def savedLines (config : Config) : Lines := documentLines config.given.sections

theorem flatMap_sectionLines (part : WrittenSection) :
    (sectionLines part).flatMap Prod.snd = part.lines := by
  rw [sectionLines, List.flatMap_cons, List.flatMap_map]
  rfl

theorem flatMap_documentLines (sections : List WrittenSection) :
    (documentLines sections).flatMap Prod.snd =
      ['\n'].intercalate (sections.map WrittenSection.lines) := by
  fun_induction documentLines sections with
  | case1 => rfl
  | case2 part => rw [flatMap_sectionLines, List.map_singleton, List.intercalate_singleton]
  | case3 part next rest ih =>
    simp only [List.flatMap_append, List.flatMap_cons, flatMap_sectionLines, ih, List.map_cons,
      List.intercalate_cons_cons, List.append_assoc]

theorem text_savedLines (config : Config) : config.savedLines.text = config.render := by
  rw [Lines.text, savedLines, flatMap_documentLines]
  rfl

/-! ## Kept lines -/

/-- The lines that are kept. No field is left without the header of its section. -/
structure Selection where
  keeps : Line → Bool
  headed : ∀ {part name : String}, keeps (.field part name) = true → keeps (.header part) = true

namespace Selection

variable (selection : Selection)

abbrev keepsField (part name : String) : Bool := selection.keeps (.field part name)

/-- The lines that are kept of these. -/
def of (lines : Lines) : Lines := lines.filter fun line => selection.keeps line.1

/-- The configuration with the kept fields of one configuration and the other
fields of another. -/
def overlay (config base : Config) : Config where
  topology := {
    topologyId := if selection.keepsField "topology" "topology_id" then config.topology.topologyId
      else base.topology.topologyId
    refreshDelay := if selection.keepsField "topology" "graph_refresh_delay_ms" then
      config.topology.refreshDelay else base.topology.refreshDelay
    maxReschedules := if selection.keepsField "topology" "max_reschedules" then
      config.topology.maxReschedules else base.topology.maxReschedules
    hostMarker := if selection.keepsField "topology" "host_link_marker" then
      config.topology.hostMarker else base.topology.hostMarker }
  database := {
    host := if selection.keepsField "database" "redis_host" then config.database.host
      else base.database.host
    port := if selection.keepsField "database" "redis_port" then config.database.port
      else base.database.port
    links := if selection.keepsField "database" "appl_db" then config.database.links
      else base.database.links
    statuses := if selection.keepsField "database" "state_db" then config.database.statuses
      else base.database.statuses }
  writer := {
    maxAttempts := if selection.keepsField "writer" "max_attempts" then config.writer.maxAttempts
      else base.writer.maxAttempts
    retryBackoff := if selection.keepsField "writer" "retry_backoff_ms" then
      config.writer.retryBackoff else base.writer.retryBackoff }
  feed := {
    pollInterval := if selection.keepsField "feed" "poll_interval_ms" then config.feed.pollInterval
      else base.feed.pollInterval }

end Selection

/-! ## Given settings that are kept -/

theorem filter_named {α : Type} (keeps : String → Bool) (make : α → Setting) (name : String)
    (value : Option α) :
    (named make name value).filter (fun field => keeps field.1) =
      named make name (value.filter fun _ => keeps name) := by
  cases value with
  | none => rfl
  | some value => cases kept : keeps name <;> simp [named, kept, Option.filter]

namespace Given

def Topology.restrict (keeps : String → Bool) (given : Topology) : Topology where
  topologyId := given.topologyId.filter fun _ => keeps "topology_id"
  refreshDelay := given.refreshDelay.filter fun _ => keeps "graph_refresh_delay_ms"
  maxReschedules := given.maxReschedules.filter fun _ => keeps "max_reschedules"
  hostMarker := given.hostMarker.filter fun _ => keeps "host_link_marker"

def Database.restrict (keeps : String → Bool) (given : Database) : Database where
  host := given.host.filter fun _ => keeps "redis_host"
  port := given.port.filter fun _ => keeps "redis_port"
  links := given.links.filter fun _ => keeps "appl_db"
  statuses := given.statuses.filter fun _ => keeps "state_db"

def Writer.restrict (keeps : String → Bool) (given : Writer) : Writer where
  maxAttempts := given.maxAttempts.filter fun _ => keeps "max_attempts"
  retryBackoff := given.retryBackoff.filter fun _ => keeps "retry_backoff_ms"

def Feed.restrict (keeps : String → Bool) (given : Feed) : Feed where
  pollInterval := given.pollInterval.filter fun _ => keeps "poll_interval_ms"

/-- The given settings that are kept. -/
def restrict (keeps : String → String → Bool) (given : Given) : Given where
  topology := given.topology.restrict (keeps "topology")
  database := given.database.restrict (keeps "database")
  writer := given.writer.restrict (keeps "writer")
  feed := given.feed.restrict (keeps "feed")

theorem settings_restrict (keeps : String → String → Bool) (given : Given) :
    (given.restrict keeps).settings = given.settings.map fun (part, fields) =>
      (part, fields.filter fun field => keeps part field.1) := by
  simp only [settings, restrict, List.map_cons, List.map_nil, Topology.fields, Database.fields,
    Writer.fields, Feed.fields, List.filter_append, filter_named (keeps "topology"),
    filter_named (keeps "database"), filter_named (keeps "writer"), filter_named (keeps "feed"),
    Topology.restrict, Database.restrict, Writer.restrict, Feed.restrict]

end Given

theorem Selection.overlay_eq (selection : Selection) (config base : Config) :
    (config.given.restrict selection.keepsField).overlay base = selection.overlay config base := by
  have chosen {α : Type} (kept : Bool) (value other : α) :
      ((some value).filter fun _ => kept).getD other = if kept then value else other := by
    cases kept <;> rfl
  simp only [Given.overlay, overlay, Given.restrict, given, Given.Topology.restrict,
    Given.Database.restrict, Given.Writer.restrict, Given.Feed.restrict, chosen]

/-! ## Reading kept lines -/

section Kept

variable {selection : Selection}

theorem carries_field {name : String} {setting : Setting} {later : List Char}
    {statements : List Toml.Statement} (bare : Toml.IsBare name)
    (others : Carries later statements) :
    Carries (WrittenField.line (name, setting.written) ++ later)
      (.assign [] name setting.toValue :: statements) := by
  have line := Carries.line (Toml.isLine_field bare setting.denotes) others
  rwa [List.append_cons] at line

theorem carries_header {name : String} {later : List Char} {statements : List Toml.Statement}
    (bare : Toml.IsBare name) (others : Carries later statements) :
    Carries ('[' :: name.toList ++ [']', '\n'] ++ later) (.table [] name :: statements) := by
  have line := Carries.line (Toml.isLine_header bare) others
  simpa using line

/-- The fields of a section whose lines are kept. -/
def Selection.fieldsOf (selection : Selection) (part : String) (fields : Fields) : Fields :=
  fields.filter fun field => selection.keepsField part field.1

theorem carries_fields (selection : Selection) (part : String) {fields : Fields}
    (bare : ∀ field ∈ fields, Toml.IsBare field.1) :
    Carries ((selection.of (fields.written.map fun field =>
        (.field part field.1, field.line))).flatMap Prod.snd)
      ((selection.fieldsOf part fields).entries.map fun (key, value) => .assign [] key value) := by
  induction fields with
  | nil => exact .nil
  | cons field fields ih =>
    obtain ⟨name, setting⟩ := field
    have others := ih fun field inside => bare field (.tail _ inside)
    rw [Fields.written, List.map_cons, List.map_cons, Selection.of, List.filter_cons,
      Selection.fieldsOf, List.filter_cons]
    by_cases kept : selection.keeps (.field part name) = true
    · rw [if_pos kept, if_pos kept]
      exact carries_field (bare _ List.mem_cons_self) others
    · rw [if_neg kept, if_neg kept]
      exact others

/-- The settings whose lines are kept, in the sections whose headers are. -/
def Selection.settingsOf (selection : Selection) (settings : SectionFields) : SectionFields :=
  (settings.map fun (part, fields) => (part, selection.fieldsOf part fields)).filter fun part =>
    selection.keeps (.header part.1)

theorem Selection.keepsField_eq_false (name : String) {part : String}
    (dropped : selection.keeps (.header part) = false) :
    selection.keepsField part name = false := by
  cases kept : selection.keepsField part name with
  | false => rfl
  | true => exact (selection.headed kept).symm.trans dropped

theorem Selection.fieldsOf_eq_nil (fields : Fields) {part : String}
    (dropped : selection.keeps (.header part) = false) : selection.fieldsOf part fields = [] := by
  rw [fieldsOf, List.filter_eq_nil_iff]
  intro field _
  exact ne_true_of_eq_false (selection.keepsField_eq_false field.1 dropped)

theorem Selection.of_fields_eq_nil (fields : List WrittenField) {part : String}
    (dropped : selection.keeps (.header part) = false) :
    selection.of (fields.map fun field => (.field part field.1, field.line)) = [] := by
  rw [of, List.filter_eq_nil_iff]
  intro line inside
  obtain ⟨field, _, rfl⟩ := List.mem_map.1 inside
  exact ne_true_of_eq_false (selection.keepsField_eq_false field.1 dropped)

theorem carries_section (selection : Selection) {part : String} {fields : Fields}
    (bare : Toml.IsBare part) (bareFields : ∀ field ∈ fields, Toml.IsBare field.1) :
    Carries ((selection.of (sectionLines (part, fields.written))).flatMap Prod.snd)
      (selection.settingsOf [(part, fields)]).sections.toStatements := by
  rw [sectionLines, Selection.of, List.filter_cons, Selection.settingsOf, List.map_singleton,
    List.filter_cons, List.filter_nil]
  cases kept : selection.keeps (.header part) with
  | true =>
    have header := carries_header bare (carries_fields selection part bareFields)
    have single : (SectionFields.sections [(part, selection.fieldsOf part fields)]).toStatements =
        .table [] part :: (selection.fieldsOf part fields).entries.map
          fun (key, value) => .assign [] key value := List.append_nil _
    rw [if_pos rfl, if_pos rfl, single]
    exact header
  | false =>
    have none := selection.of_fields_eq_nil fields.written kept
    rw [Selection.of] at none
    rw [if_neg Bool.false_ne_true, if_neg Bool.false_ne_true, none]
    exact .nil

theorem Selection.of_append (lines later : Lines) :
    selection.of (lines ++ later) = selection.of lines ++ selection.of later :=
  List.filter_append ..

theorem Selection.toStatements_cons (part : String × Fields) (settings : SectionFields) :
    (selection.settingsOf (part :: settings)).sections.toStatements =
      (selection.settingsOf [part]).sections.toStatements ++
        (selection.settingsOf settings).sections.toStatements := by
  have cut : selection.settingsOf (part :: settings) =
      selection.settingsOf [part] ++ selection.settingsOf settings := by
    rw [settingsOf, ← List.singleton_append, List.map_append, List.filter_append]
    rfl
  rw [cut, SectionFields.sections, List.map_append, Toml.Sections.toStatements, List.flatMap_append]
  rfl

theorem carries_documentLines (selection : Selection) {settings : SectionFields}
    (bare : ∀ part ∈ settings, Toml.IsBare part.1 ∧ ∀ field ∈ part.2, Toml.IsBare field.1) :
    Carries ((selection.of (documentLines (settings.map fun (part, fields) =>
        (part, fields.written)))).flatMap Prod.snd)
      (selection.settingsOf settings).sections.toStatements := by
  induction settings with
  | nil => exact .nil
  | cons part settings ih =>
    have ⟨bareName, bareFields⟩ := bare part List.mem_cons_self
    have first := carries_section selection bareName bareFields
    cases settings with
    | nil => exact first
    | cons next settings =>
      have others := ih fun part inside => bare part (.tail _ inside)
      rw [Selection.toStatements_cons, List.map_cons, List.map_cons, documentLines,
        Selection.of_append, List.flatMap_append]
      -- Between two sections stands one empty line, whether or not it is kept.
      refine first.append ?_
      rw [Selection.of, List.filter_cons]
      by_cases kept : selection.keeps (.gap next.1) = true
      · rw [if_pos kept]
        exact .blank others
      · rw [if_neg kept]
        exact others

end Kept

theorem ofText?_of (config : Config) (selection : Selection) :
    ofText? (selection.of config.savedLines).text = some (selection.overlay config .default) := by
  have kept : selection.settingsOf config.given.settings =
      (config.given.restrict selection.keepsField).settings.filter fun part =>
        selection.keeps (.header part.1) := by
    rw [Given.settings_restrict]
    rfl
  have carries : Carries (selection.of config.savedLines).text.toList
      (selection.settingsOf config.given.settings).sections.toStatements := by
    rw [Lines.text, String.toList_ofList, savedLines, sections_eq]
    exact carries_documentLines selection config.given.bare_settings
  have missing : ∀ part ∈ (config.given.restrict selection.keepsField).settings,
      selection.keeps (.header part.1) = false → part.2 = [] := by
    intro part inside dropped
    rw [Given.settings_restrict] at inside
    obtain ⟨whole, _, rfl⟩ := List.mem_map.1 inside
    exact selection.fieldsOf_eq_nil whole.2 dropped
  have document := Toml.readDocument?_of_carries
    (kept ▸ Given.distinct_sections _ fun part => selection.keeps (.header part)) carries
  have given := Given.ofDocument?_document (config.given.restrict selection.keepsField)
    (fun part => selection.keeps (.header part)) missing
  rw [← kept, SectionFields.document] at given
  rw [ofText?, document, Option.bind_eq_bind, Option.bind_some, given, Option.bind_eq_bind,
    Option.bind_some, selection.overlay_eq]
  rfl

theorem load_toUTF8 {text : String} {config : Config} (path : String)
    (read : ofText? text = some config) : load path (.ok text.toUTF8) = .ok config := by
  have decoded : String.fromUTF8? text.toUTF8 = some text :=
    dif_pos (show text.toUTF8.IsValidUTF8 from text.isValidUTF8)
  rw [load, decoded]
  dsimp only
  rw [read]

/-- The selection of all lines. -/
def Selection.everything : Selection where
  keeps _ := true
  headed _ := rfl

/-- Loading what is left of a saved configuration gives the fields that are left and the defaults
of the others; when nothing is deleted, it gives the configuration itself. -/
theorem load_kept_lines (config : Config) (selection : Selection) (path : String) :
    config.savedLines.text = config.render ∧
      load path (.ok config.render.toUTF8) = .ok config ∧
      load path (.ok (selection.of config.savedLines).text.toUTF8) =
        .ok (selection.overlay config .default) := by
  have all : (Selection.everything.of config.savedLines) = config.savedLines :=
    List.filter_eq_self.2 fun _ _ => rfl
  have whole := ofText?_of config .everything
  rw [all, text_savedLines] at whole
  exact ⟨text_savedLines config, load_toUTF8 path whole,
    load_toUTF8 path (ofText?_of config selection)⟩

end LoopGuard.Config
