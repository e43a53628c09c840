import LoopGuard.Engine.Pending
import LoopGuard.Proofs.Topology.Cable
import LoopGuard.Proofs.Topology.Table

/-!
# Replaying changes on a link table

What a graph holds is a fold of changes over a table: adding keeps the link
that is there already, and removing goes by id. `LinkTable.replay` is that
fold.

A removal takes a link out by its id but speaks of the ports that it reports.
`Reports` says that the reports are right, in a sense left open. If at least
they name both ports of each link that they take out, a port loses its last link
only to a removal that names it (`LinkChange.ends_file_or_mem`).
-/

namespace LoopGuard

/-- A removal that reports the second link names both ports of the first. -/
def Link.NamesEnds (stored reported : Link) : Prop :=
  ∀ port ∈ stored.endpoints, port ∈ reported.endpoints

instance : DecidableRel Link.NamesEnds := fun stored reported =>
  inferInstanceAs (Decidable (∀ port ∈ stored.endpoints, port ∈ reported.endpoints))

namespace LinkChange

/-- The links that the change names. -/
def links : LinkChange → List Link
  | add links => links
  | remove links => links

/-- The table after the change. -/
def file (table : LinkTable) : LinkChange → LinkTable
  | add links => table.addAll links
  | remove links => table.eraseAll links

end LinkChange

namespace LinkTable

/-- The table after some changes. -/
def replay (table : LinkTable) (changes : List LinkChange) : LinkTable :=
  changes.foldl LinkChange.file table

variable {table : LinkTable} {links : List Link} {changes : List LinkChange} {port : PortRef}

theorem replay_append (table : LinkTable) (first second : List LinkChange) :
    table.replay (first ++ second) = (table.replay first).replay second :=
  List.foldl_append

theorem ends_links_iff :
    Ends table.links port ↔
      ∃ (id : LinkId) (link : Link), table[id]? = some link ∧ port ∈ link.endpoints := by
  constructor
  · rintro ⟨link, mem, here⟩
    obtain ⟨id, filed⟩ := mem_links.1 mem
    exact ⟨id, link, filed, here⟩
  · rintro ⟨id, link, filed, here⟩
    exact ⟨link, mem_links.2 ⟨id, filed⟩, here⟩

/-! ## Ports that keep their links -/

/-- Adding takes no port its links. -/
theorem ends_addAll (ends : Ends table.links port) : Ends (table.addAll links).links port := by
  obtain ⟨id, kept, filed, here⟩ := ends_links_iff.1 ends
  refine ends_links_iff.2 ⟨id, kept, ?_, here⟩
  rw [getElem?_addAll, filed, Option.some_or]

/-- Each removal that takes a link out reports it rightly. -/
def ReportsEach (right : Link → Link → Prop) : LinkTable → List Link → Prop
  | _, [] => True
  | table, link :: rest =>
    (∀ stored ∈ table[link.id]?, right stored link) ∧
      ReportsEach right (table.erase link.id) rest

theorem ends_eraseAll_or_mem (named : table.ReportsEach Link.NamesEnds links)
    (ends : Ends table.links port) :
    Ends (table.eraseAll links).links port ∨ port ∈ links.flatMap Link.endpoints := by
  induction links generalizing table with
  | nil => exact .inl ends
  | cons link rest ih =>
    obtain ⟨first, later⟩ := named
    obtain ⟨id, stored, filed, here⟩ := ends_links_iff.1 ends
    by_cases same : link.id = id
    · subst same
      exact .inr (List.mem_flatMap.2 ⟨link, List.mem_cons_self, first stored filed port here⟩)
    · have kept : (table.erase link.id)[id]? = some stored := by
        rw [Std.ExtTreeMap.getElem?_erase, if_neg, filed]
        exact fun eq => same (Std.LawfulEqCmp.eq_of_compare eq)
      rcases ih later (ends_links_iff.2 ⟨id, stored, kept, here⟩) with still | mem
      · exact .inl still
      · rw [List.flatMap_cons]
        exact .inr (List.mem_append_right _ mem)

end LinkTable

/-- The removals among the changes, each where it is made, report every link
that they take out rightly. -/
def Reports (right : Link → Link → Prop) : LinkTable → List LinkChange → Prop
  | _, [] => True
  | table, .add links :: rest => Reports right (table.addAll links) rest
  | table, .remove links :: rest =>
    table.ReportsEach right links ∧ Reports right (table.eraseAll links) rest

/-- Some removal names the port. -/
def Named (changes : List LinkChange) (port : PortRef) : Prop :=
  ∃ change ∈ changes, port ∈ change.releasedPorts

instance {changes : List LinkChange} {port : PortRef} : Decidable (Named changes port) :=
  inferInstanceAs (Decidable (∃ change ∈ changes, port ∈ change.releasedPorts))

section Reports

variable {right weaker : Link → Link → Prop} {table : LinkTable} {port : PortRef}

theorem reports_append {first second : List LinkChange} :
    Reports right table (first ++ second) ↔
      Reports right table first ∧ Reports right (table.replay first) second := by
  induction first generalizing table with
  | nil => simp [Reports, LinkTable.replay]
  | cons change first ih =>
    cases change <;> simp [Reports, ih, and_assoc, LinkTable.replay, LinkChange.file]

theorem LinkTable.ReportsEach.mono {links : List Link} (reports : table.ReportsEach right links)
    (weak : ∀ {stored link}, right stored link → weaker stored link) :
    table.ReportsEach weaker links := by
  induction links generalizing table with
  | nil => trivial
  | cons link rest ih => exact ⟨fun stored mem => weak (reports.1 stored mem), ih reports.2⟩

theorem Reports.mono {changes : List LinkChange} (reports : Reports right table changes)
    (weak : ∀ {stored link}, right stored link → weaker stored link) :
    Reports weaker table changes := by
  induction changes generalizing table with
  | nil => trivial
  | cons change rest ih =>
    cases change with
    | add links => exact ih reports
    | remove links => exact ⟨reports.1.mono weak, ih reports.2⟩

instance decidableReportsEach [DecidableRel right] : (table : LinkTable) → (links : List Link) →
    Decidable (table.ReportsEach right links)
  | _, [] => .isTrue trivial
  | table, link :: rest =>
    have := decidableReportsEach (table.erase link.id) rest
    inferInstanceAs (Decidable (_ ∧ _))

instance decidableReports [DecidableRel right] : (table : LinkTable) →
    (changes : List LinkChange) → Decidable (Reports right table changes)
  | _, [] => .isTrue trivial
  | table, .add links :: rest => decidableReports (table.addAll links) rest
  | table, .remove links :: rest =>
    have := decidableReports (table.eraseAll links) rest
    inferInstanceAs (Decidable (_ ∧ _))

/-- One change takes a port its last link only if it names the port. -/
theorem LinkChange.ends_file_or_mem {change : LinkChange}
    (reports : Reports Link.NamesEnds table [change]) (ends : Ends table.links port) :
    Ends (change.file table).links port ∨ port ∈ change.releasedPorts := by
  cases change with
  | add links => exact .inl (LinkTable.ends_addAll ends)
  | remove links => exact LinkTable.ends_eraseAll_or_mem reports.1 ends

end Reports

namespace LinkChange

variable {change : LinkChange} {table : LinkTable} {port : PortRef}

theorem ends_of_mem_releasedPorts (released : port ∈ change.releasedPorts) :
    Ends change.links port := by
  cases change with
  | add => cases released
  | remove => exact ends_iff_mem_flatMap.2 released

/-- A port gets a link only by a change that names it. -/
theorem ends_of_ends_file (ends : Ends (change.file table).links port) :
    Ends table.links port ∨ Ends change.links port := by
  obtain ⟨id, link, filed, here⟩ := LinkTable.ends_links_iff.1 ends
  cases change with
  | add links =>
    rw [file, LinkTable.getElem?_addAll, Option.or_eq_some_iff] at filed
    rcases filed with before | ⟨_, added⟩
    · exact .inl (LinkTable.ends_links_iff.2 ⟨id, link, before, here⟩)
    · exact .inr ⟨link, List.mem_of_find?_eq_some added, here⟩
  | remove links =>
    rw [file, LinkTable.getElem?_eraseAll] at filed
    split at filed
    · cases filed
    · exact .inl (LinkTable.ends_links_iff.2 ⟨id, link, filed, here⟩)

end LinkChange

end LoopGuard
