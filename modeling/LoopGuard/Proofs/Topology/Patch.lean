import LoopGuard.Proofs.Topology.Replay

/-!
# Changes between two tables

What `LinkTable.changes` lists depends on what the two tables hold under each id.
An id with the same link in both is left alone; any other loses the link of the
first table and gains that of the second. So the event, replayed on the first
table, gives the second, and every removal reports the link that is there. This
stays so for the links of the fabric when host links are dropped from the tables
and from the event.
-/

namespace LoopGuard

variable {marker : String} {event : LinkEvent} {link other : Link} {id : LinkId}

/-! ## Events -/

namespace LinkTable

variable {table previous current : LinkTable} {right : Link → Link → Prop}

/-- An event takes its removed links out and files its created ones. -/
theorem replay_changes :
    table.replay event.changes = (table.eraseAll event.removed).addAll event.created := by
  cases removed : event.removed <;> cases created : event.created <;>
    simp [LinkEvent.changes, replay, LinkChange.file, eraseAll, addAll, removed, created]

theorem reports_changes :
    Reports right table event.changes ↔ table.ReportsEach right event.removed := by
  cases removed : event.removed <;> cases created : event.created <;>
    simp [LinkEvent.changes, Reports, ReportsEach, removed, created]

/-- Removals of links that are filed as they are reported report rightly, however
often one of them is taken out. -/
theorem reportsEach_eq {links : List Link}
    (filed : ∀ link ∈ links, ∀ stored ∈ table[link.id]?, stored = link) :
    table.ReportsEach Eq links := by
  induction links generalizing table with
  | nil => trivial
  | cons first rest ih =>
    refine ⟨filed first List.mem_cons_self, ih fun link inside stored held => ?_⟩
    rw [Std.ExtTreeMap.getElem?_erase] at held
    split at held
    · cases held
    · exact filed link (.tail _ inside) stored held

/-! ## Links of the fabric -/

/-- The links that attach no host. -/
def fabric (marker : String) (table : LinkTable) : LinkTable :=
  table.filter fun _ link => !link.isHostLink marker

theorem getElem?_fabric :
    (table.fabric marker)[id]? = table[id]?.filter fun link => !link.isHostLink marker := by
  rw [fabric, Std.ExtTreeMap.getElem?_filter']

/-- Whether a link attaches a host stands in its id. -/
theorem isHostLink_congr (same : link.id = other.id) :
    link.isHostLink marker = other.isHostLink marker := by
  rw [Link.isHostLink, Link.isHostLink, same]

/-! ## What the event lists -/

theorem mem_created (keyed : current.Keyed) :
    link ∈ (previous.changes current).created ↔
      current[link.id]? = some link ∧ previous[link.id]? ≠ some link := by
  simp only [changes, List.mem_map, List.mem_filter, decide_eq_true_eq]
  constructor
  · intro listed
    obtain ⟨⟨id, link⟩, ⟨inside, fresh⟩, rfl⟩ := listed
    have held := Std.ExtTreeMap.mem_toList_iff_getElem?_eq_some.1 inside
    obtain rfl := keyed id link held
    exact ⟨held, fresh⟩
  · intro listed
    obtain ⟨held, fresh⟩ := listed
    exact ⟨(link.id, link), ⟨Std.ExtTreeMap.mem_toList_iff_getElem?_eq_some.2 held, fresh⟩, rfl⟩

theorem mem_removed (keyed : previous.Keyed) :
    link ∈ (previous.changes current).removed ↔
      previous[link.id]? = some link ∧ current[link.id]? ≠ some link := by
  simp only [changes, List.mem_append, List.mem_filterMap, List.mem_map, List.mem_filter,
    decide_eq_true_eq, Bool.not_eq_true', ← Bool.not_eq_true]
  constructor
  · intro listed
    rcases listed with ⟨⟨id, new⟩, ⟨inside, fresh⟩, old⟩ | ⟨⟨id, link⟩, ⟨inside, gone⟩, rfl⟩
    · have held := Std.ExtTreeMap.mem_toList_iff_getElem?_eq_some.1 inside
      obtain rfl := keyed id link old
      refine ⟨old, fun same => fresh ?_⟩
      rw [old, ← same, held]
    · have held := Std.ExtTreeMap.mem_toList_iff_getElem?_eq_some.1 inside
      obtain rfl := keyed id link held
      refine ⟨held, fun kept => gone ?_⟩
      have filed : link.id ∈ current := Std.ExtTreeMap.isSome_getElem?_iff_mem.1 (by rw [kept]; rfl)
      exact Std.ExtTreeMap.contains_iff_mem.2 filed
  · intro listed
    obtain ⟨held, other⟩ := listed
    cases now : current[link.id]? with
    | none =>
      refine .inr ⟨(link.id, link),
        ⟨Std.ExtTreeMap.mem_toList_iff_getElem?_eq_some.2 held, fun kept => ?_⟩, rfl⟩
      have some := Std.ExtTreeMap.isSome_getElem?_iff_mem.2 (Std.ExtTreeMap.contains_iff_mem.1 kept)
      rw [now] at some
      cases some
    | some new =>
      refine .inl ⟨(link.id, new),
        ⟨Std.ExtTreeMap.mem_toList_iff_getElem?_eq_some.2 now, fun same => other ?_⟩, held⟩
      rw [now, ← same, held]

/-- Under each id the event files what the second table holds anew. -/
theorem find?_created (keyed : current.Keyed) :
    ((previous.changes current).created.find? fun link => link.id = id) =
      if current[id]? = previous[id]? then none else current[id]? := by
  cases found : (previous.changes current).created.find? fun link => link.id = id with
  | some link =>
    obtain rfl : link.id = id := by simpa using List.find?_some found
    obtain ⟨held, fresh⟩ := (mem_created keyed).1 (List.mem_of_find?_eq_some found)
    rw [if_neg fun same => fresh (same.symm.trans held), held]
  | none =>
    rw [List.find?_eq_none] at found
    split
    next => rfl
    next other =>
      cases held : current[id]? with
      | none => rfl
      | some link =>
        obtain rfl := keyed id link held
        refine absurd (decide_eq_true rfl)
          (found link ((mem_created keyed).2 ⟨held, fun same => ?_⟩))
        exact other (held.trans same.symm)

theorem exists_removed (keyed : previous.Keyed) :
    (∃ link ∈ (previous.changes current).removed, link.id = id) ↔
      previous[id]?.isSome = true ∧ current[id]? ≠ previous[id]? := by
  constructor
  · intro removed
    obtain ⟨link, listed, rfl⟩ := removed
    obtain ⟨held, other⟩ := (mem_removed keyed).1 listed
    rw [held]
    exact ⟨rfl, other⟩
  · intro removed
    obtain ⟨some, other⟩ := removed
    obtain ⟨link, held⟩ := Option.isSome_iff_exists.1 some
    obtain rfl := keyed id link held
    exact ⟨link, (mem_removed keyed).2 ⟨held, held ▸ other⟩, rfl⟩

/-! ## The patch -/

theorem find?_filter_isHostLink (links : List Link) :
    ((links.filter fun link => !link.isHostLink marker).find? fun link => link.id = id) =
      (links.find? fun link => link.id = id).filter fun link => !link.isHostLink marker := by
  induction links with
  | nil => rfl
  | cons first rest ih =>
    by_cases host : first.isHostLink marker = true
    · rw [List.filter_cons_of_neg (by simp [host])]
      by_cases same : first.id = id
      · rw [List.find?_cons_of_pos (by simpa using same), Option.filter_some,
          if_neg (by simp [host]), List.find?_eq_none]
        intro link listed here
        -- whatever else has this id attaches a host as well
        have shared : link.isHostLink marker = true :=
          (isHostLink_congr ((of_decide_eq_true here).trans same.symm)).trans host
        simp [shared] at listed
      · rw [List.find?_cons_of_neg (by simpa using same), ih]
    · rw [List.filter_cons_of_pos (by simp [host])]
      by_cases same : first.id = id
      · rw [List.find?_cons_of_pos (by simpa using same),
          List.find?_cons_of_pos (by simpa using same)]
        simp [Option.filter_some, host]
      · rw [List.find?_cons_of_neg (by simpa using same), ih,
          List.find?_cons_of_neg (by simpa using same)]

/-- What is left of the first table under an id once the removed links are out. -/
theorem getElem?_eraseAll_removed (keyed : previous.Keyed) :
    ((previous.fabric marker).eraseAll
        ((previous.changes current).withoutHostLinks marker).removed)[id]? =
      if current[id]? = previous[id]? then (previous.fabric marker)[id]? else none := by
  rw [getElem?_eraseAll]
  by_cases same : current[id]? = previous[id]?
  · rw [if_pos same, if_neg]
    intro removed
    obtain ⟨link, listed, here⟩ := removed
    exact ((exists_removed keyed).1 ⟨link, (List.mem_filter.1 listed).1, here⟩).2 same
  · rw [if_neg same, ite_eq_left_iff]
    intro kept
    rw [getElem?_fabric]
    cases held : previous[id]? with
    | none => rfl
    | some link =>
      obtain rfl := keyed id link held
      rw [Option.filter_some_eq_none]
      intro fabric
      refine kept ⟨link, List.mem_filter.2 ⟨(mem_removed keyed).2 ⟨held, ?_⟩, fabric⟩, rfl⟩
      exact held ▸ same

/-- The event between two tables leads from the fabric of the first to that of
the second. -/
theorem replay_changes_fabric (keyed : previous.Keyed) (keyed' : current.Keyed) :
    (previous.fabric marker).replay ((previous.changes current).withoutHostLinks marker).changes =
      current.fabric marker := by
  refine Std.ExtTreeMap.ext_getElem? fun id => ?_
  rw [replay_changes, getElem?_addAll, getElem?_eraseAll_removed keyed]
  change Option.or _ (((previous.changes current).created.filter fun link =>
    !link.isHostLink marker).find? fun link => link.id = id) = _
  rw [find?_filter_isHostLink, find?_created keyed', getElem?_fabric, getElem?_fabric]
  by_cases same : current[id]? = previous[id]?
  · rw [if_pos same, if_pos same, same, Option.filter_none, Option.or_none]
  · rw [if_neg same, if_neg same, Option.none_or]

/-- Each removal of the event reports the link that the fabric has. -/
theorem reports_changes_fabric (keyed : previous.Keyed) :
    Reports Eq (previous.fabric marker)
      ((previous.changes current).withoutHostLinks marker).changes := by
  refine reports_changes.2 (reportsEach_eq fun link removed stored held => ?_)
  obtain ⟨listed, -⟩ := List.mem_filter.1 removed
  rw [getElem?_fabric, ((mem_removed keyed).1 listed).1] at held
  exact (Option.some.inj (Option.eq_some_of_filter_eq_some held)).symm

end LinkTable

end LoopGuard
