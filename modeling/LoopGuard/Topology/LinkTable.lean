import LoopGuard.Topology.Event

/-!
# Link tables

A `LinkTable` keeps one link under each id and lists them in the order of
their ids. `LinkTable.changes` is the event that leads from one table to
another: a link whose ends changed under a kept id is reported as removed with
its old ends and created with its new ones.
-/

namespace LoopGuard

abbrev LinkTable := Std.ExtTreeMap LinkId Link

namespace LinkTable

def links (table : LinkTable) : List Link := table.toList.map (·.2)

/-- Files the links in order; the first link of an id stays. -/
def addAll (table : LinkTable) (links : List Link) : LinkTable :=
  links.foldl (fun table link => table.insertIfNew link.id link) table

/-- The table with the first link of each id. -/
def ofFirst (links : List Link) : LinkTable := addAll ∅ links

/-- The table with the last link of each id. -/
def ofLast (links : List Link) : LinkTable :=
  links.foldl (fun table link => table.insert link.id link) ∅

/-- The event that turns `previous` into `current`. -/
def changes (previous current : LinkTable) : LinkEvent :=
  let fresh := current.toList.filter fun (id, link) => previous[id]? ≠ some link
  let replaced := fresh.filterMap fun (id, _) => previous[id]?
  let gone := previous.toList.filter fun (id, _) => !current.contains id
  { created := fresh.map (·.2), removed := replaced ++ gone.map (·.2) }

end LinkTable

end LoopGuard
