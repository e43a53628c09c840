import LoopGuard.Topology.LinkTable

/-!
# What link tables hold

The operations on link tables, read id by id: adding keeps what an id has already
and else files the first link of the id, erasing takes out every id that it is
given. A table is `Keyed` when each link is filed under its own id; then its links
stand in the order of their ids.
-/

namespace LoopGuard

/-- No link before this one has its id. -/
def Link.IsFirst (links : List Link) (link : Link) : Prop :=
  links.find? (fun other => other.id = link.id) = some link

instance {links : List Link} {link : Link} : Decidable (link.IsFirst links) :=
  inferInstanceAs (Decidable (_ = some link))

namespace LinkTable

variable {table : LinkTable} {links : List Link} {link : Link} {id : LinkId}

/-- Takes out the links with the ids of these. -/
def eraseAll (table : LinkTable) (links : List Link) : LinkTable :=
  links.foldl (fun table link => table.erase link.id) table

/-- Every link is filed under its own id. -/
def Keyed (table : LinkTable) : Prop :=
  ∀ (id : LinkId) (link : Link), table[id]? = some link → link.id = id

theorem mem_links : link ∈ table.links ↔ ∃ id : LinkId, table[id]? = some link := by
  simp [links, Std.ExtTreeMap.mem_toList_iff_getElem?_eq_some]

/-! ## Adding and erasing -/

theorem getElem?_addAll :
    (table.addAll links)[id]? = table[id]?.or (links.find? fun link => link.id = id) := by
  induction links generalizing table with
  | nil => simp [addAll]
  | cons first rest ih =>
    refine ih.trans ?_
    simp only [Std.ExtTreeMap.getElem?_insertIfNew, Std.LawfulEqCmp.compare_eq_iff_eq]
    by_cases same : first.id = id
    · subst same
      cases filed : table[first.id]? <;> simp [Std.ExtTreeMap.mem_iff_isSome_getElem?, filed]
    · simp [same]

theorem getElem?_eraseAll :
    (table.eraseAll links)[id]? =
      if ∃ link ∈ links, link.id = id then none else table[id]? := by
  induction links generalizing table with
  | nil => simp [eraseAll]
  | cons first rest ih =>
    refine ih.trans ?_
    simp only [Std.ExtTreeMap.getElem?_erase, Std.LawfulEqCmp.compare_eq_iff_eq]
    by_cases same : first.id = id
    · simp [same]
    · simp [same]

theorem getElem?_ofFirst : (ofFirst links)[id]? = links.find? fun link => link.id = id := by
  rw [ofFirst, getElem?_addAll]
  simp

/-! ## Keyed tables -/

theorem keyed_empty : Keyed ∅ := by
  intro id link filed
  simp at filed

theorem Keyed.insert (keyed : Keyed table) : Keyed (table.insert link.id link) := by
  intro id other filed
  rw [Std.ExtTreeMap.getElem?_insert] at filed
  split at filed
  next same =>
    obtain rfl := Option.some.inj filed
    exact Std.LawfulEqCmp.eq_of_compare same
  next => exact keyed id other filed

theorem Keyed.erase (keyed : Keyed table) : Keyed (table.erase id) := by
  intro other link filed
  rw [Std.ExtTreeMap.getElem?_erase] at filed
  split at filed
  · cases filed
  · exact keyed other link filed

theorem keyed_ofFirst : Keyed (ofFirst links) := by
  intro id link filed
  rw [getElem?_ofFirst] at filed
  simpa using List.find?_some filed

theorem Keyed.mem_links_iff (keyed : table.Keyed) :
    link ∈ table.links ↔ table[link.id]? = some link := by
  rw [mem_links]
  constructor
  · rintro ⟨id, filed⟩
    rwa [keyed id link filed]
  · exact fun filed => ⟨link.id, filed⟩

/-- The links stand in the order of their ids. -/
theorem Keyed.ordered_links (keyed : Keyed table) :
    table.links.Pairwise fun link other => compare link.id other.id = .lt := by
  rw [links, List.pairwise_map]
  refine Std.ExtTreeMap.ordered_keys_toList.imp_of_mem fun {x y} mem mem' less => ?_
  rw [keyed x.1 x.2 (Std.ExtTreeMap.mem_toList_iff_getElem?_eq_some.1 mem),
    keyed y.1 y.2 (Std.ExtTreeMap.mem_toList_iff_getElem?_eq_some.1 mem')]
  exact less

/-! ## First links -/

/-- The table of first links has the first link of each id. -/
theorem mem_links_ofFirst : link ∈ (ofFirst links).links ↔ link.IsFirst links := by
  rw [keyed_ofFirst.mem_links_iff, getElem?_ofFirst]
  rfl

/-- Lists with the same first links make one table. -/
theorem ofFirst_eq_of_isFirst {other : List Link}
    (same : ∀ link : Link, link.IsFirst links ↔ link.IsFirst other) :
    ofFirst links = ofFirst other := by
  have filed {links : List Link} {link : Link} {id : LinkId} :
      (ofFirst links)[id]? = some link ↔ link.IsFirst links ∧ link.id = id := by
    constructor
    · intro filed
      obtain rfl := keyed_ofFirst id link filed
      exact ⟨getElem?_ofFirst.symm.trans filed, rfl⟩
    · rintro ⟨first, rfl⟩
      exact getElem?_ofFirst.trans first
  refine Std.ExtTreeMap.ext_getElem? fun id => Option.ext fun link => ?_
  rw [filed, filed, same]

end LinkTable

/-- Where ids are distinct every link is the first of its id. -/
theorem isFirst_iff_mem {links : List Link} {link : Link} (distinct : (links.map Link.id).Nodup) :
    link.IsFirst links ↔ link ∈ links := by
  refine ⟨List.mem_of_find?_eq_some, fun mem => ?_⟩
  obtain ⟨earlier, later, rfl⟩ := List.append_of_mem mem
  rw [List.map_append, List.map_cons] at distinct
  refine List.find?_eq_some_iff_append.2 ⟨by simp, earlier, later, rfl, fun first mem => ?_⟩
  have apart : first.id ≠ link.id := (List.nodup_append.1 distinct).2.2
    first.id (List.mem_map_of_mem mem) link.id List.mem_cons_self
  simpa using apart

end LoopGuard
