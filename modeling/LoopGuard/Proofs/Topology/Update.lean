import LoopGuard.Proofs.Topology.Patch
import LoopGuard.Proofs.Topology.Requests

/-!
# Changes between two tables, carried out on a graph

The event between two tables lists no id twice on either side. It takes out links that
are there and files links whose ids are free by then, so on a graph with the links of
the first table each link that it lists counts, and the links of the second table are
what is left (`LinkEvent.Updates`). Dropping host links from the event makes it the
event between the fabrics of the two tables, in the same sense.
-/

namespace LoopGuard

/-- Carried out on a graph with the links of one table, the event leaves those of the
other, and every link that it lists is counted. -/
def LinkEvent.Updates (event : LinkEvent) (previous current : LinkTable) : Prop :=
  ∀ graph : LinkGraph, graph.table = previous →
    let parted := graph.removeLinks event.removed
    let joined := parted.1.addLinks event.created
    joined.1.table = current ∧ (graph.Sound → joined.1.Sound) ∧
      parted.2 = event.removed.length ∧ joined.2 = event.created.length

namespace LinkTable

variable {table previous current : LinkTable} {links : List Link} {link : Link} {id : LinkId}
  {event : LinkEvent} {marker : String}

/-! ## Counting distinct ids -/

/-- Of distinct ids that all pass, each one counts. -/
private theorem card_filter_of_forall {passes : LinkId → Prop} [DecidablePred passes]
    (distinct : (links.map Link.id).Nodup) (all : ∀ link ∈ links, passes link.id) :
    ((links.map Link.id).toFinset.filter passes).card = links.length := by
  have every : (links.map Link.id).toFinset.filter passes = (links.map Link.id).toFinset := by
    refine Finset.filter_true_of_mem fun id listed => ?_
    obtain ⟨link, inside, rfl⟩ := List.mem_map.1 (List.mem_toFinset.1 listed)
    exact all link inside
  rw [every, List.toFinset_card_of_nodup distinct, List.length_map]

/-- An event updates one table to another if it does so link by link: it takes out what
is there, and files what is not there any more. -/
theorem updates_of_replay (removed : (event.removed.map Link.id).Nodup)
    (created : (event.created.map Link.id).Nodup)
    (known : ∀ link ∈ event.removed, link.id ∈ previous)
    (new : ∀ link ∈ event.created, link.id ∉ previous.eraseAll event.removed)
    (replayed : previous.replay event.changes = current) : event.Updates previous current := by
  intro graph same parted joined
  subst same
  have left : parted.1.table = graph.table.eraseAll event.removed := LinkGraph.table_removeLinks
  refine ⟨?_, fun sound => sound.removeLinks.addLinks, ?_, ?_⟩
  · rw [← replayed, replay_changes, ← left]
    exact LinkGraph.table_addLinks
  · exact LinkGraph.snd_removeLinks.trans (card_filter_of_forall removed known)
  · rw [← left] at new
    exact LinkGraph.snd_addLinks.trans (card_filter_of_forall created new)

/-! ## Each id once -/

theorem Keyed.nodup_ids (keyed : table.Keyed) : (table.links.map Link.id).Nodup := by
  rw [List.Nodup, List.pairwise_map]
  refine keyed.ordered_links.imp fun {link other} less same => ?_
  rw [same] at less
  exact Ordering.noConfusion (less.symm.trans Std.ReflCmp.compare_self)

theorem created_sublist : (previous.changes current).created.Sublist current.links :=
  List.filter_sublist.map _

theorem nodup_created (keyed : current.Keyed) :
    ((previous.changes current).created.map Link.id).Nodup :=
  keyed.nodup_ids.sublist (created_sublist.map _)

/-- Links that are replaced have their ids in the second table, links that are gone do
not, so no id is removed twice. -/
theorem nodup_removed (keyed : previous.Keyed) :
    ((previous.changes current).removed.map Link.id).Nodup := by
  have distinct : (current.toList.filter fun entry => previous[entry.1]? ≠ some entry.2).Pairwise
      fun first second => ¬compare first.1 second.1 = .eq :=
    Std.ExtTreeMap.distinct_keys_toList.sublist List.filter_sublist
  rw [changes, List.map_append, List.nodup_append]
  refine ⟨?_, ?_, ?_⟩
  · rw [List.Nodup, List.pairwise_map, List.pairwise_filterMap]
    refine distinct.imp fun {first second} apart link held other held' same => apart ?_
    rw [← keyed _ _ held, ← keyed _ _ held', same]
    exact Std.ReflCmp.compare_self
  · exact keyed.nodup_ids.sublist ((List.filter_sublist.map Prod.snd).map _)
  · intro id replaced other gone same
    obtain ⟨old, mem, rfl⟩ := List.mem_map.1 replaced
    obtain ⟨last, mem', rfl⟩ := List.mem_map.1 gone
    obtain ⟨entry, fresh, held⟩ := List.mem_filterMap.1 mem
    obtain ⟨entry', left, rfl⟩ := List.mem_map.1 mem'
    obtain ⟨listed, absent⟩ := List.mem_filter.1 left
    have key : old.id = entry.1 := keyed _ _ held
    have key' : entry'.2.id = entry'.1 :=
      keyed _ _ (Std.ExtTreeMap.mem_toList_iff_getElem?_eq_some.1 listed)
    have inside : current[entry.1]? = some entry.2 :=
      Std.ExtTreeMap.mem_toList_iff_getElem?_eq_some.1 (List.mem_filter.1 fresh).1
    rw [← key, same, key'] at inside
    have present : entry'.1 ∈ current := Std.ExtTreeMap.isSome_getElem?_iff_mem.1 (by simp [inside])
    simp [Std.ExtTreeMap.contains_iff_mem.2 present] at absent

/-! ## The update -/

/-- The event without host links updates the fabric of the first table to that of the
second. -/
theorem updates_changes_fabric (keyed : previous.Keyed) (keyed' : current.Keyed) :
    ((previous.changes current).withoutHostLinks marker).Updates (previous.fabric marker)
      (current.fabric marker) := by
  refine updates_of_replay ((nodup_removed keyed).sublist (List.filter_sublist.map _))
    ((nodup_created keyed').sublist (List.filter_sublist.map _)) (fun link listed => ?_)
    (fun link listed => ?_) (replay_changes_fabric keyed keyed')
  · obtain ⟨removed, fabric⟩ := List.mem_filter.1 listed
    have held := ((mem_removed keyed).1 removed).1
    rw [← Std.ExtTreeMap.isSome_getElem?_iff_mem, getElem?_fabric, held, Option.filter_some,
      if_pos fabric]
    rfl
  · obtain ⟨held, fresh⟩ := (mem_created keyed').1 (List.mem_filter.1 listed).1
    have other : current[link.id]? ≠ previous[link.id]? := fun same => fresh (same.symm.trans held)
    rw [← Std.ExtTreeMap.isSome_getElem?_iff_mem, getElem?_eraseAll_removed keyed, if_neg other]
    simp

/-- An empty marker marks no link. -/
theorem isHostLink_empty : link.isHostLink "" = false := by
  simp [Link.isHostLink]

theorem fabric_empty : table.fabric "" = table := by
  refine Std.ExtTreeMap.ext_getElem? fun id => ?_
  rw [getElem?_fabric]
  cases table[id]? <;> simp [isHostLink_empty]

theorem withoutHostLinks_empty : event.withoutHostLinks "" = event := by
  simp [LinkEvent.withoutHostLinks, isHostLink_empty]

theorem changes_isEmpty_iff (keyed : previous.Keyed) (keyed' : current.Keyed) :
    (previous.changes current).isEmpty = true ↔ previous = current := by
  rw [LinkEvent.isEmpty, Bool.and_eq_true, List.isEmpty_iff, List.isEmpty_iff]
  constructor
  · intro empty
    obtain ⟨nothing, nothing'⟩ := empty
    have replayed : (previous.fabric "").replay
        ((previous.changes current).withoutHostLinks "").changes = current.fabric "" :=
      replay_changes_fabric keyed keyed'
    rwa [withoutHostLinks_empty, fabric_empty, fabric_empty, replay_changes, nothing,
      nothing'] at replayed
  · intro same
    subst same
    refine ⟨List.eq_nil_iff_forall_not_mem.2 fun link created => ?_,
      List.eq_nil_iff_forall_not_mem.2 fun link removed => ?_⟩
    · obtain ⟨held, fresh⟩ := (mem_created keyed).1 created
      exact fresh held
    · obtain ⟨held, other⟩ := (mem_removed keyed).1 removed
      exact other held

/-- The event between two tables turns a graph with the links of the first into one with
the links of the second, and each link that it lists is counted. It removes distinct
links of the first table and creates distinct links of the second, none of them both
and none that both tables have, and is empty only if the tables are the same. Without
the links that attach hosts, whatever marks these, it does the same for the other links
of the two tables. -/
theorem changes_are_an_exact_patch (previous current : LinkTable) (keyed : previous.Keyed)
    (keyed' : current.Keyed) :
    let event := previous.changes current
    event.Updates previous current ∧
      (event.removed.Nodup ∧ ∀ link ∈ event.removed, link ∈ previous.links) ∧
      (event.created.Nodup ∧ ∀ link ∈ event.created, link ∈ current.links) ∧
      (∀ link ∈ event.removed, link ∉ event.created) ∧
      (∀ link ∈ previous.links, link ∈ current.links →
        link ∉ event.removed ∧ link ∉ event.created) ∧
      (event.isEmpty = true ↔ previous = current) ∧
      ∀ marker, (event.withoutHostLinks marker).Updates (previous.fabric marker)
        (current.fabric marker) := by
  intro event
  have removed (link : Link) : link ∈ event.removed ↔
      previous[link.id]? = some link ∧ current[link.id]? ≠ some link := mem_removed keyed
  have created (link : Link) : link ∈ event.created ↔
      current[link.id]? = some link ∧ previous[link.id]? ≠ some link := mem_created keyed'
  have update : (event.withoutHostLinks "").Updates (previous.fabric "") (current.fabric "") :=
    updates_changes_fabric keyed keyed'
  rw [withoutHostLinks_empty, fabric_empty, fabric_empty] at update
  refine ⟨update, ⟨(nodup_removed keyed).of_map _, fun link listed => ?_⟩,
    ⟨(nodup_created keyed').of_map _, fun link listed => created_sublist.subset listed⟩,
    fun link listed listed' => ?_, fun link before after => ?_, changes_isEmpty_iff keyed keyed',
    fun marker => updates_changes_fabric keyed keyed'⟩
  · exact keyed.mem_links_iff.2 ((removed link).1 listed).1
  · exact ((removed link).1 listed).2 ((created link).1 listed').1
  · rw [keyed.mem_links_iff] at before
    rw [keyed'.mem_links_iff] at after
    exact ⟨fun listed => ((removed link).1 listed).2 after,
      fun listed => ((created link).1 listed).2 before⟩

/-- A chain of four switches, with a host at the first. -/
def wired : List Link :=
  [⟨⟨"ab"⟩, .of "A" "1", .of "B" "1"⟩, ⟨⟨"bc"⟩, .of "B" "2", .of "C" "1"⟩,
    ⟨⟨"cd"⟩, .of "C" "2", .of "D" "1"⟩, ⟨⟨"host-1"⟩, .of "A" "9", .of "H" "1"⟩]

/-- The first cable is put into another port of `B`, the last one goes to `E`, and there
is another host. -/
def rewired : List Link :=
  [⟨⟨"ab"⟩, .of "A" "1", .of "B" "3"⟩, ⟨⟨"bc"⟩, .of "B" "2", .of "C" "1"⟩,
    ⟨⟨"ce"⟩, .of "C" "2", .of "E" "1"⟩, ⟨⟨"host-2"⟩, .of "A" "9", .of "H" "2"⟩]

/-- The kept id is in both lists of the event, which leads to the new links. -/
theorem rewiring_is_an_exact_patch :
    let previous := ofFirst wired
    let current := ofFirst rewired
    let event := previous.changes current
    let parted := (LinkGraph.empty.addLinks wired).1.removeLinks event.removed
    let joined := parted.1.addLinks event.created
    previous.Keyed ∧ current.Keyed ∧
      event.removed.map Link.id = [⟨"ab"⟩, ⟨"cd"⟩, ⟨"host-1"⟩] ∧
      event.created.map Link.id = [⟨"ab"⟩, ⟨"ce"⟩, ⟨"host-2"⟩] ∧
      previous ≠ current ∧ joined.1.allLinks = rewired ∧ joined.1.Sound ∧
      parted.2 = 3 ∧ joined.2 = 3 ∧
      (event.withoutHostLinks "host").Updates (previous.fabric "host") (current.fabric "host") := by
  intro previous current event parted joined
  have keyed : previous.Keyed := keyed_ofFirst
  have keyed' : current.Keyed := keyed_ofFirst
  have removed : event.removed.map Link.id = [⟨"ab"⟩, ⟨"cd"⟩, ⟨"host-1"⟩] := by decide +kernel
  have created : event.created.map Link.id = [⟨"ab"⟩, ⟨"ce"⟩, ⟨"host-2"⟩] := by decide +kernel
  obtain ⟨update, -, -, -, -, empty, fabric⟩ :=
    changes_are_an_exact_patch previous current keyed keyed'
  obtain ⟨table, sound, parts, joins⟩ :=
    update (LinkGraph.empty.addLinks wired).1 LinkGraph.table_addLinks
  have all : current.links = rewired := by decide +kernel
  refine ⟨keyed, keyed', removed, created, fun same => ?_, ?_,
    sound LinkGraph.sound_empty.addLinks, ?_, ?_, fabric "host"⟩
  · have nothing : event.isEmpty = true := empty.2 same
    revert nothing
    decide +kernel
  · rw [LinkGraph.allLinks, table, all]
  · rw [parts, ← List.length_map (f := Link.id), removed]
    rfl
  · rw [joins, ← List.length_map (f := Link.id), created]
    rfl

end LinkTable

end LoopGuard
