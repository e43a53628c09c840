import LoopGuard.Proofs.Forest.Tree
import LoopGuard.Proofs.Topology.Table
import Mathlib.Data.Set.Card

/-!
# The computed forest spans the fabric

A fabric falls into connected parts. `compute_spans` is what a computed forest is
for: it has one tree for each part, over just the switches of the part, whose links
come from the fabric, join all of these switches and have no circuit.

The scan over the links leaves a partition of the switches, and its classes are the
parts (`rootOf_eq_iff`). Trees and the links in them are filed by their roots, so
`Covers` describes each tree by any of its switches and speaks of roots no more.
-/

namespace LoopGuard

/-! ## Parts of a fabric -/

/-- The switches at which the links end. -/
def switches (links : List Link) : Set NodeId :=
  {a | ∃ link ∈ links, link.source.node = a ∨ link.destination.node = a}

/-- The switches that the links lead to from one of them. -/
def connectedPart (links : List Link) (a : NodeId) : Set NodeId := {b | Linked links a b}

/-- The connected parts of the fabric that the links form. -/
def connectedParts (links : List Link) : Set (Set NodeId) :=
  connectedPart links '' switches links

/-- The first link of each id, in the order of ids. -/
def firstLinks (links : List Link) : List Link := (LinkTable.ofFirst links).links

/-- The switches of a tree. -/
def SpanningTree.region (tree : SpanningTree) : Set NodeId := {a | a ∈ tree.nodes}

variable {links : List Link} {a b : NodeId}

theorem NodeSet.mem_ofLinks_iff : a ∈ NodeSet.ofLinks links ↔ a ∈ switches links := by
  simp [NodeSet.ofLinks, switches, eq_comm]

/-- No way leads out of the fabric. -/
theorem Linked.mem_switches (linked : Linked links a b) (mem : a ∈ switches links) :
    b ∈ switches links := by
  induction linked with
  | refl => exact mem
  | tail _ step _ =>
    obtain ⟨link, mem, joins⟩ := step
    rcases joins with ⟨_, destination⟩ | ⟨source, _⟩
    · exact ⟨link, mem, .inr destination⟩
    · exact ⟨link, mem, .inl source⟩

/-- Self-loops alone lead nowhere. -/
theorem Linked.eq_of_isSelfLoop (linked : Linked links a b)
    (loops : ∀ link ∈ links, link.source.node = a ∨ link.destination.node = a →
      link.isSelfLoop = true) : b = a := by
  induction linked with
  | refl => rfl
  | tail _ step ih =>
    subst ih
    obtain ⟨link, mem, joins⟩ := step
    have loop := loops link mem
    simp only [Link.isSelfLoop, decide_eq_true_eq] at loop
    rcases joins with ⟨source, destination⟩ | ⟨source, destination⟩
    · exact destination.symm.trans ((loop (.inl source)).symm.trans source)
    · exact source.symm.trans ((loop (.inr destination)).trans destination)

/-! ## Lists -/

/-- Of values that a sorted list gives rise to, each has its first origin before
all origins of the later ones. -/
private theorem pairwise_eraseDups_map {α β : Type} [BEq β] [LawfulBEq β] {lt : α → α → Prop}
    {f : α → β} {l : List α} (sorted : l.Pairwise lt) :
    (l.map f).eraseDups.Pairwise fun first second =>
      first ≠ second ∧ ∃ a ∈ l, f a = first ∧ ∀ b ∈ l, f b = second → lt a b := by
  match l with
  | [] => simp
  | a :: rest =>
    have others : (rest.map f).filter (fun b => !b == f a) =
        (rest.filter fun b => !f b == f a).map f := List.filter_map
    rw [List.map_cons, List.eraseDups_cons, others, List.pairwise_cons]
    have shorter : (rest.filter fun b => !f b == f a).length < (a :: rest).length :=
      Nat.lt_succ_of_le (List.length_filter_le _ _)
    rw [List.pairwise_cons] at sorted
    have apart {value : β} (mem : value ∈ ((rest.filter fun b => !f b == f a).map f).eraseDups) :
        value ≠ f a := by
      rw [List.mem_eraseDups, List.mem_map] at mem
      obtain ⟨b, mem, rfl⟩ := mem
      simpa using (List.mem_filter.1 mem).2
    constructor
    · intro value mem
      refine ⟨(apart mem).symm, a, List.mem_cons_self, rfl, fun b mem' same => ?_⟩
      rcases List.mem_cons.1 mem' with rfl | mem'
      · exact absurd same.symm (apart mem)
      · exact sorted.1 b mem'
    · have later := pairwise_eraseDups_map (f := f) (sorted.2.filter fun b => !f b == f a)
      refine later.imp_of_mem fun {first second} _ mem' => ?_
      rintro ⟨differ, b, mem, from_b, least⟩
      refine ⟨differ, b, List.mem_cons_of_mem _ (List.mem_filter.1 mem).1, from_b, ?_⟩
      intro c mem'' from_c
      have other : f c ≠ f a := from_c ▸ apart mem'
      rcases List.mem_cons.1 mem'' with rfl | mem''
      · exact absurd rfl other
      · exact least c (List.mem_filter.2 ⟨mem'', by simpa using other⟩) from_c
termination_by l.length
decreasing_by exact shorter

/-- A list without repetitions is as long as the set of its members is large. -/
private theorem ncard_eq_length {α : Type} {l : List α} {s : Set α} (nodup : l.Nodup)
    (mem : ∀ a, a ∈ l ↔ a ∈ s) : s.ncard = l.length := by
  classical
  have same : s = (l.toFinset : Set α) := by
    ext a
    simp [mem]
  rw [same, Set.ncard_coe_finset, List.toFinset_card_of_nodup nodup]

namespace SpanningForest

/-! ## Trees and their roots -/

/-- The switches of the fabric. -/
def spanned (links : List Link) : NodeSet := .ofLinks (firstLinks links)

/-- The classes that the scan joins in the end. -/
def partition (links : List Link) : DisjointSet (spanned links).count :=
  (choose (spanned links).index (.singletons _) (firstLinks links)).2

/-- The root of the class in which a switch ends. -/
def rootOf (links : List Link) (node : NodeId) : Option (Fin (spanned links).count) :=
  (spanned links).index[node]?.map (partition links).root

/-- The tree of the switches that have this root. -/
def treeAt (links : List Link) (root : Option (Fin (spanned links).count)) : SpanningTree where
  nodes := (spanned links).filter fun node => rootOf links node = root
  links := (selection links).filter fun link => rootOf links link.source.node = root

theorem trees_compute (links : List Link) :
    (compute links).trees =
      ((spanned links).toList.map (rootOf links)).eraseDups.map (treeAt links) :=
  rfl

theorem mem_spanned : a ∈ spanned links ↔ a ∈ switches (firstLinks links) :=
  NodeSet.mem_ofLinks_iff

/-- Two switches have one root exactly if the links lead from one to the other. -/
theorem rootOf_eq_iff (mem : a ∈ spanned links) (mem' : b ∈ spanned links) :
    rootOf links a = rootOf links b ↔ Linked (firstLinks links) a b := by
  obtain ⟨i, at_i⟩ := NodeSet.exists_getElem?_index mem
  obtain ⟨j, at_j⟩ := NodeSet.exists_getElem?_index mem'
  have reflects := (chosen_choose (reflects_singletons (spanned links)) fun _ mem =>
    ⟨NodeSet.exists_getElem?_index (NodeSet.mem_ofLinks mem).1,
      NodeSet.exists_getElem?_index (NodeSet.mem_ofLinks mem).2⟩).2 a b i j at_i at_j
  rw [rootOf, rootOf, at_i, at_j, Option.map_some, Option.map_some, Option.some_inj]
  exact reflects.trans (linked_congr (by simp [firstLinks]))

theorem selection_sublist (links : List Link) : (selection links).Sublist (firstLinks links) :=
  (chosen_selection links).sublist

/-- The selection links whatever the links do. -/
theorem linked_selection_iff : Linked (selection links) a b ↔ Linked (firstLinks links) a b := by
  have choice := (chosen_selection links).linked_iff (fun _ _ => Iff.rfl) a b
  have back {links : List Link} : Linked (links.reverse ++ []) a b ↔ Linked links a b :=
    linked_congr (by simp)
  rwa [back, back] at choice

theorem mem_switches_of_mem {link : Link} (mem : link ∈ firstLinks links) :
    link.source.node ∈ switches (firstLinks links) ∧
      link.destination.node ∈ switches (firstLinks links) :=
  ⟨⟨link, mem, .inl rfl⟩, ⟨link, mem, .inr rfl⟩⟩

/-- The tree is over the part of the fabric in which the switch lies. -/
structure Covers (links : List Link) (a : NodeId) (tree : SpanningTree) : Prop where
  mem_nodes : ∀ b, b ∈ tree.nodes ↔ Linked (firstLinks links) a b
  mem_links : ∀ link, link ∈ tree.links ↔
    link ∈ selection links ∧ Linked (firstLinks links) a link.source.node
  sublist : tree.links.Sublist (selection links)

theorem covers_treeAt (mem : a ∈ switches (firstLinks links)) :
    Covers links a (treeAt links (rootOf links a)) := by
  have root {b : NodeId} (mem' : b ∈ switches (firstLinks links)) :
      rootOf links b = rootOf links a ↔ Linked (firstLinks links) a b :=
    eq_comm.trans (rootOf_eq_iff (mem_spanned.2 mem) (mem_spanned.2 mem'))
  refine ⟨fun b => ?_, fun link => ?_, List.filter_sublist⟩
  · have filtered : b ∈ (treeAt links (rootOf links a)).nodes ↔
        b ∈ switches (firstLinks links) ∧ rootOf links b = rootOf links a := by
      simp [treeAt, Std.ExtTreeSet.mem_filter, mem_spanned]
    rw [filtered]
    exact ⟨fun both => (root both.1).1 both.2, fun linked =>
      ⟨linked.mem_switches mem, (root (linked.mem_switches mem)).2 linked⟩⟩
  · simp only [treeAt, List.mem_filter, decide_eq_true_eq]
    refine and_congr_right fun chosen => root ?_
    exact (mem_switches_of_mem ((selection_sublist links).subset chosen)).1

/-- Every tree covers a part. -/
theorem exists_covers {tree : SpanningTree} (mem : tree ∈ (compute links).trees) :
    ∃ a ∈ switches (firstLinks links), Covers links a tree := by
  rw [trees_compute, List.mem_map] at mem
  obtain ⟨root, mem, rfl⟩ := mem
  rw [List.mem_eraseDups, List.mem_map] at mem
  obtain ⟨a, mem, rfl⟩ := mem
  have member := mem_spanned.1 (Std.ExtTreeSet.mem_toList.1 mem)
  exact ⟨a, member, covers_treeAt member⟩

/-- Every part is covered by a tree. -/
theorem exists_mem_trees (mem : a ∈ switches (firstLinks links)) :
    ∃ tree ∈ (compute links).trees, Covers links a tree := by
  refine ⟨treeAt links (rootOf links a), ?_, covers_treeAt mem⟩
  rw [trees_compute]
  refine List.mem_map_of_mem (List.mem_eraseDups.2 (List.mem_map_of_mem ?_))
  exact Std.ExtTreeSet.mem_toList.2 (mem_spanned.2 mem)

theorem Covers.region_eq {tree : SpanningTree} (covers : Covers links a tree) :
    tree.region = connectedPart (firstLinks links) a :=
  Set.ext covers.mem_nodes

/-- What covers a part is a tree. -/
theorem Covers.isTree {tree : SpanningTree} (covers : Covers links a tree) : tree.IsTree where
  nonempty := ⟨a, (covers.mem_nodes a).2 .refl⟩
  within link mem := by
    obtain ⟨chosen, source⟩ := (covers.mem_links link).1 mem
    have across := Linked.of_mem ((selection_sublist links).subset chosen)
    exact ⟨(covers.mem_nodes _).2 source, (covers.mem_nodes _).2 (source.trans across)⟩
  connected b mem c mem' := by
    have near := (covers.mem_nodes b).1 mem
    have far := (covers.mem_nodes c).1 mem'
    have linked := linked_selection_iff.2 (near.symm.trans far)
    have closed (link : Link) (chosen : link ∈ selection links) :
        Linked (firstLinks links) a link.source.node ↔
          Linked (firstLinks links) a link.destination.node := by
      have across := Linked.of_mem ((selection_sublist links).subset chosen)
      exact ⟨fun source => source.trans across, fun destination => destination.trans across.symm⟩
    refine (linked.within closed ?_ near).2
    exact fun link chosen source => (covers.mem_links link).2 ⟨chosen, source⟩
  noCircuit := (noCircuit_selection links).mono covers.sublist.subperm

theorem isTree_of_mem {tree : SpanningTree} (mem : tree ∈ (compute links).trees) :
    tree.IsTree := by
  obtain ⟨a, _, covers⟩ := exists_covers mem
  exact covers.isTree

/-! ## The order of the trees -/

/-- The least switch of the first tree is below that of the second. -/
def Precedes (early late : SpanningTree) : Prop :=
  ∃ a b, early.nodes.min? = some a ∧ late.nodes.min? = some b ∧ compare a b = .lt

/-- Trees come in the order of their least switches. -/
theorem pairwise_trees_compute (links : List Link) :
    (compute links).trees.Pairwise fun early late => early.Apart late ∧ Precedes early late := by
  have sorted : (spanned links).toList.Pairwise fun a b => compare a b = .lt :=
    Std.ExtTreeSet.ordered_toList
  rw [trees_compute, List.pairwise_map]
  refine (pairwise_eraseDups_map (f := rootOf links) sorted).imp_of_mem ?_
  rintro first second _ mem ⟨differ, a, mem', rfl, least⟩
  rw [List.mem_eraseDups, List.mem_map] at mem
  obtain ⟨b, mem, rfl⟩ := mem
  have mem_nodes {c : NodeId} {root : Option (Fin (spanned links).count)} :
      c ∈ (treeAt links root).nodes ↔ c ∈ spanned links ∧ rootOf links c = root := by
    simp [treeAt, Std.ExtTreeSet.mem_filter]
  constructor
  · intro c here there
    exact differ ((mem_nodes.1 here).2.symm.trans (mem_nodes.1 there).2)
  · have here : a ∈ (treeAt links (rootOf links a)).nodes :=
      mem_nodes.2 ⟨Std.ExtTreeSet.mem_toList.1 mem', rfl⟩
    have there : b ∈ (treeAt links (rootOf links b)).nodes :=
      mem_nodes.2 ⟨Std.ExtTreeSet.mem_toList.1 mem, rfl⟩
    obtain ⟨low, at_low⟩ := Option.isSome_iff_exists.1 (Std.ExtTreeSet.isSome_min?_of_mem here)
    obtain ⟨high, at_high⟩ := Option.isSome_iff_exists.1 (Std.ExtTreeSet.isSome_min?_of_mem there)
    obtain ⟨high_mem, high_root⟩ :=
      mem_nodes.1 (Std.ExtTreeSet.min?_eq_some_iff_mem_and_forall.1 at_high).1
    have below := (Std.ExtTreeSet.min?_eq_some_iff_mem_and_forall.1 at_low).2 a here
    have above := least high (Std.ExtTreeSet.mem_toList.2 high_mem) high_root
    exact ⟨low, high, at_low, at_high, Std.TransCmp.lt_of_isLE_of_lt below above⟩

/-! ## The forest -/

theorem verify_compute (links : List Link) : (compute links).verify = .ok () :=
  verify_eq_ok_iff.2 ⟨fun _ => isTree_of_mem, (pairwise_trees_compute links).imp And.left⟩

theorem nodup_map_region (links : List Link) :
    ((compute links).trees.map SpanningTree.region).Nodup := by
  rw [List.Nodup, List.pairwise_map]
  refine (pairwise_trees_compute links).imp_of_mem fun {early late} mem _ => ?_
  rintro ⟨apart, _⟩ same
  obtain ⟨a, here⟩ := (isTree_of_mem mem).nonempty
  exact apart a here (same ▸ here : a ∈ late.region)

theorem mem_map_region {region : Set NodeId} :
    region ∈ (compute links).trees.map SpanningTree.region ↔
      region ∈ connectedParts (firstLinks links) := by
  rw [List.mem_map]
  constructor
  · rintro ⟨tree, mem, rfl⟩
    obtain ⟨a, member, covers⟩ := exists_covers mem
    exact ⟨a, member, covers.region_eq.symm⟩
  · rintro ⟨a, member, rfl⟩
    obtain ⟨tree, mem, covers⟩ := exists_mem_trees member
    exact ⟨tree, mem, covers.region_eq⟩

/-- One link fewer than switches for each part. -/
theorem linkCount_compute (links : List Link) :
    (compute links).linkCount + (connectedParts (firstLinks links)).ncard =
      (switches (firstLinks links)).ncard := by
  have parts : (connectedParts (firstLinks links)).ncard = (compute links).trees.length := by
    rw [ncard_eq_length (nodup_map_region links) fun _ => mem_map_region, List.length_map]
  have nodes : (switches (firstLinks links)).ncard =
      ((compute links).trees.flatMap (·.nodes.toList)).length := by
    refine ncard_eq_length (List.nodup_flatMap.2 ⟨fun tree _ => ?_, ?_⟩) fun a => ?_
    · refine Std.ExtTreeSet.distinct_toList.imp ?_
      rintro a _ apart rfl
      exact apart Std.ReflCmp.compare_self
    · refine (pairwise_trees_compute links).imp ?_
      rintro early late ⟨apart, _⟩ a here there
      exact apart a (Std.ExtTreeSet.mem_toList.1 here) (Std.ExtTreeSet.mem_toList.1 there)
    · simp only [List.mem_flatMap, Std.ExtTreeSet.mem_toList]
      constructor
      · rintro ⟨tree, mem, here⟩
        obtain ⟨b, member, covers⟩ := exists_covers mem
        exact ((covers.mem_nodes a).1 here).mem_switches member
      · intro member
        obtain ⟨tree, mem, covers⟩ := exists_mem_trees member
        exact ⟨tree, mem, (covers.mem_nodes a).2 .refl⟩
  rw [parts, nodes]
  exact length_flatMap_links_add_length fun _ => isTree_of_mem

/-- Of any links, whichever loops, twins and repeated ids there are, the first of
each id make up a fabric, and the computed forest has exactly one tree for each of
its connected parts. The tree has the switches of the part and no others, a single
one where there are self-loops only, and its links are distinct links of the fabric
that join all these switches without a circuit. Trees come in the order of their
least switches, the links of a tree in the order of their ids. The forest passes its
own check, and has one link fewer than switches for each part. -/
theorem compute_spans (links : List Link) :
    let fabric := firstLinks links
    let forest := compute links
    (∀ link, link ∈ fabric ↔ link.IsFirst links) ∧
      (forest.trees.map SpanningTree.region).Nodup ∧
      (∀ region, region ∈ forest.trees.map SpanningTree.region ↔
        region ∈ connectedParts fabric) ∧
      (∀ a ∈ switches fabric, ∃! tree, tree ∈ forest.trees ∧ a ∈ tree.nodes) ∧
      (∀ a ∈ switches fabric, (∀ link ∈ fabric,
          link.source.node = a ∨ link.destination.node = a → link.isSelfLoop = true) →
        ∃ tree ∈ forest.trees, tree.region = {a}) ∧
      (∀ tree ∈ forest.trees, tree.IsTree ∧ tree.links.Nodup ∧
        (∀ link ∈ tree.links, link ∈ fabric) ∧
        tree.links.Pairwise fun link other => compare link.id other.id = .lt) ∧
      forest.trees.Pairwise Precedes ∧
      forest.verify = .ok () ∧
      forest.linkCount + (connectedParts fabric).ncard = (switches fabric).ncard := by
  intro fabric forest
  have ordered : fabric.Pairwise fun link other => compare link.id other.id = .lt :=
    LinkTable.keyed_ofFirst.ordered_links
  refine ⟨fun link => LinkTable.mem_links_ofFirst, nodup_map_region links,
    fun region => mem_map_region, fun a member => ?_, fun a member loops => ?_,
    fun tree mem => ?_, (pairwise_trees_compute links).imp And.right, verify_compute links,
    linkCount_compute links⟩
  · obtain ⟨tree, mem, covers⟩ := exists_mem_trees member
    refine ⟨tree, ⟨mem, (covers.mem_nodes a).2 .refl⟩, ?_⟩
    rintro other ⟨mem', here⟩
    obtain ⟨b, _, covers'⟩ := exists_covers mem'
    -- both regions are the part of `a`, and no two trees have one region
    have same : other.region = tree.region := by
      rw [covers.region_eq, covers'.region_eq]
      have linked := (covers'.mem_nodes a).1 here
      exact Set.ext fun c => ⟨linked.symm.trans, linked.trans⟩
    exact List.inj_on_of_nodup_map (nodup_map_region links) mem' mem same
  · obtain ⟨tree, mem, covers⟩ := exists_mem_trees member
    refine ⟨tree, mem, Set.ext fun b => (covers.mem_nodes b).trans ⟨fun linked => ?_, ?_⟩⟩
    · exact linked.eq_of_isSelfLoop loops
    · rintro rfl
      exact .refl
  · obtain ⟨a, _, covers⟩ := exists_covers mem
    have sublist := covers.sublist.trans (selection_sublist links)
    refine ⟨covers.isTree, (ordered.sublist sublist).imp ?_, fun link here => sublist.subset here,
      ordered.sublist sublist⟩
    rintro link _ less rfl
    exact Ordering.noConfusion (less.symm.trans Std.ReflCmp.compare_self)

end SpanningForest

end LoopGuard
