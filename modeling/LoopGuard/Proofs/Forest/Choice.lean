import LoopGuard.Forest.Basic
import LoopGuard.Proofs.Forest.Circuit
import LoopGuard.Proofs.Forest.Partition

/-!
# The greedy choice

`Chosen before links chosen` describes the greedy choice without any data
structure: going through `links` in order, a link is taken exactly if the links
before it do not link its two ends. `chosen_choose` shows that the scan over a
disjoint set makes this choice. What is chosen has no circuit and still links
whatever the links do (`Chosen.linked_iff`), so a computed forest is acyclic
(`acyclic_links_compute`).
-/

namespace LoopGuard

/-! ## Numbering switches -/

namespace NodeSet

variable {nodes : NodeSet} {a b : NodeId}

/-- A switch has the number of its place in the ascending order. -/
theorem getElem?_index {i : Fin nodes.count} :
    nodes.index[a]? = some i ↔ nodes.toList.get i = a := by
  have keys : (nodes.toList.zip (List.finRange nodes.count)).map Prod.fst = nodes.toList :=
    List.map_fst_zip (by simp [count])
  have distinct : (nodes.toList.zip (List.finRange nodes.count)).Pairwise
      fun x y => ¬compare x.1 y.1 = .eq := by
    have sorted : nodes.toList.Pairwise fun x y => ¬compare x y = .eq :=
      Std.ExtTreeSet.distinct_toList
    rw [← keys] at sorted
    exact List.pairwise_map.1 sorted
  have at_get (j : Fin nodes.count) : nodes.index[nodes.toList.get j]? = some j := by
    refine Std.ExtTreeMap.getElem?_ofList_of_mem Std.ReflCmp.compare_self distinct ?_
    have bound : j.1 < (nodes.toList.zip (List.finRange nodes.count)).length := by
      simpa [count] using j.2
    have at_j : (nodes.toList.zip (List.finRange nodes.count))[j.1] = (nodes.toList.get j, j) := by
      simp only [List.getElem_zip, List.getElem_finRange]
      rfl
    exact at_j ▸ List.getElem_mem bound
  constructor
  · intro found
    by_cases mem : a ∈ nodes.toList
    · obtain ⟨j, rfl⟩ : ∃ j : Fin nodes.count, nodes.toList.get j = a := List.get_of_mem mem
      rw [at_get] at found
      rw [Option.some.inj found]
    · have absent : nodes.index[a]? = none :=
        Std.ExtTreeMap.getElem?_ofList_of_contains_eq_false (by simpa [keys] using mem)
      simp [absent] at found
  · rintro rfl
    exact at_get i

theorem exists_getElem?_index (mem : a ∈ nodes) : ∃ i, nodes.index[a]? = some i := by
  obtain ⟨i, at_i⟩ := List.get_of_mem (Std.ExtTreeSet.mem_toList.2 mem)
  exact ⟨i, getElem?_index.2 at_i⟩

theorem mem_ofLinks {links : List Link} {link : Link} (mem : link ∈ links) :
    link.source.node ∈ ofLinks links ∧ link.destination.node ∈ ofLinks links := by
  have ends : link.source.node ∈ links.flatMap (fun link =>
      [link.source.node, link.destination.node]) ∧ link.destination.node ∈ links.flatMap
        (fun link => [link.source.node, link.destination.node]) :=
    ⟨List.mem_flatMap.2 ⟨link, mem, by simp⟩, List.mem_flatMap.2 ⟨link, mem, by simp⟩⟩
  simpa [ofLinks, Std.ExtTreeSet.mem_ofList] using ends

end NodeSet

/-! ## The choice -/

/-- Of `links`, in their order, `chosen` are those whose ends neither `before`
nor any earlier link has linked. -/
inductive Chosen : List Link → List Link → List Link → Prop
  | nil (before : List Link) : Chosen before [] []
  | take {before rest chosen : List Link} {link : Link} :
    ¬Linked before link.source.node link.destination.node →
    Chosen (link :: before) rest chosen → Chosen before (link :: rest) (link :: chosen)
  | pass {before rest chosen : List Link} {link : Link} :
    Linked before link.source.node link.destination.node →
    Chosen (link :: before) rest chosen → Chosen before (link :: rest) chosen

theorem Chosen.sublist {before links chosen : List Link} (choice : Chosen before links chosen) :
    chosen.Sublist links := by
  induction choice with
  | nil => exact .slnil
  | take _ _ ih => exact ih.cons_cons _
  | pass _ _ ih => exact ih.cons _

/-- A choice grows from links that were there before. -/
theorem Chosen.growing {before links chosen kept : List Link} (choice : Chosen before links chosen)
    (sub : ∀ link ∈ kept, link ∈ before) : Growing kept chosen := by
  induction choice generalizing kept with
  | nil => trivial
  | @take before rest chosen link apart _ ih =>
    have more : ∀ other ∈ link :: kept, other ∈ link :: before := by
      simpa using fun other mem => .inr (sub other mem)
    exact ⟨fun linked => apart (linked.mono sub), ih more⟩
  | pass _ _ ih => exact ih fun other mem => List.mem_cons_of_mem _ (sub other mem)

/-- A choice links all that the links link from which it is made. -/
theorem Chosen.linked_iff {before links chosen kept : List Link}
    (choice : Chosen before links chosen)
    (same : ∀ a b, Linked kept a b ↔ Linked before a b) (a b : NodeId) :
    Linked (chosen.reverse ++ kept) a b ↔ Linked (links.reverse ++ before) a b := by
  induction choice generalizing kept with
  | nil => exact same a b
  | @take before rest chosen link _ _ ih =>
    have both : ∀ a b, Linked (link :: kept) a b ↔ Linked (link :: before) a b := fun a b => by
      simp only [linked_cons_iff, same]
    simpa using ih both
  | @pass before rest chosen link joined _ ih =>
    have both : ∀ a b, Linked kept a b ↔ Linked (link :: before) a b := fun a b => by
      rw [same, linked_cons_iff_of_linked joined]
    simpa using ih both

namespace SpanningForest

variable {n : Nat} {index : Std.ExtTreeMap NodeId (Fin n)} {sets : DisjointSet n}
  {before links : List Link}

/-- The classes of the disjoint set are the switches that the links link. -/
def Reflects (index : Std.ExtTreeMap NodeId (Fin n)) (sets : DisjointSet n)
    (links : List Link) : Prop :=
  ∀ a b i j, index[a]? = some i → index[b]? = some j →
    (sets.root i = sets.root j ↔ Linked links a b)

/-- The ends of the link are numbered. -/
def Indexed (index : Std.ExtTreeMap NodeId (Fin n)) (link : Link) : Prop :=
  (∃ i, index[link.source.node]? = some i) ∧ ∃ j, index[link.destination.node]? = some j

/-- Uniting the ends of a link takes the link into account. -/
theorem Reflects.union {link : Link} {i j : Fin n} (reflects : Reflects index sets before)
    (source : index[link.source.node]? = some i)
    (destination : index[link.destination.node]? = some j) :
    Reflects index (sets.union i j).2 (link :: before) := by
  intro a b x y at_a at_b
  rw [DisjointSet.root_union_eq_iff, linked_cons_iff, reflects a b x y at_a at_b,
    reflects a _ x i at_a source, reflects _ b j y destination at_b,
    reflects a _ x j at_a destination, reflects _ b i y source at_b]

/-- The scan makes the greedy choice, and its disjoint set reflects every link
that it went through. -/
theorem chosen_choose (reflects : Reflects index sets before)
    (indexed : ∀ link ∈ links, Indexed index link) :
    Chosen before links (choose index sets links).1 ∧
      Reflects index (choose index sets links).2 (links.reverse ++ before) := by
  induction links generalizing sets before with
  | nil => exact ⟨.nil before, reflects⟩
  | cons link rest ih =>
    rw [List.forall_mem_cons] at indexed
    obtain ⟨⟨⟨i, source⟩, ⟨j, destination⟩⟩, others⟩ := indexed
    obtain ⟨choice, final⟩ := ih (reflects.union source destination) others
    have joined := reflects _ _ i j source destination
    simp only [choose, source, destination]
    refine ⟨?_, by simpa using final⟩
    split
    next apart => exact .take (fun linked => (sets.union_fst i j).1 apart (joined.2 linked)) choice
    next same =>
      refine .pass (joined.1 (Decidable.byContradiction fun apart => ?_)) choice
      exact same ((sets.union_fst i j).2 apart)

theorem reflects_singletons (nodes : NodeSet) :
    Reflects nodes.index (.singletons nodes.count) [] := by
  intro a b i j at_a at_b
  rw [NodeSet.getElem?_index] at at_a at_b
  rw [DisjointSet.root_singletons, DisjointSet.root_singletons]
  constructor
  · rintro rfl
    rw [← at_a, ← at_b]
    exact .refl
  · intro linked
    cases linked.cases_head with
    | inl same =>
      have distinct : nodes.toList.Nodup := by
        refine Std.ExtTreeSet.distinct_toList.imp ?_
        rintro x _ apart rfl
        exact apart Std.ReflCmp.compare_self
      have places : nodes.toList.get i = nodes.toList.get j := at_a.trans (same.trans at_b.symm)
      exact Fin.ext ((List.getElem_inj distinct).1 places)
    | inr step =>
      obtain ⟨_, ⟨_, mem, _⟩, _⟩ := step
      simp at mem

/-! ## The computed forest -/

/-- What the scan chooses from the links of a fabric, in the order of ids. -/
def selection (links : List Link) : List Link :=
  let ordered := (LinkTable.ofFirst links).links
  let nodes := NodeSet.ofLinks ordered
  (choose nodes.index (.singletons nodes.count) ordered).1

/-- The selection is the greedy choice from the first link of each id. -/
theorem chosen_selection (links : List Link) :
    Chosen [] (LinkTable.ofFirst links).links (selection links) :=
  (chosen_choose (reflects_singletons _) fun _ mem =>
    ⟨NodeSet.exists_getElem?_index (NodeSet.mem_ofLinks mem).1,
      NodeSet.exists_getElem?_index (NodeSet.mem_ofLinks mem).2⟩).1

/-- The trees have no link that was not chosen. -/
theorem mem_selection_of_mem_links {links : List Link} {link : Link}
    (mem : link ∈ (compute links).links) : link ∈ selection links := by
  simp only [SpanningForest.links, compute, List.mem_flatMap, List.mem_map] at mem
  obtain ⟨_, ⟨_, _, rfl⟩, mem⟩ := mem
  exact (List.mem_filter.1 mem).1

theorem noCircuit_selection (links : List Link) : NoCircuit (selection links) :=
  noCircuit_iff_growing.2 ((chosen_selection links).growing (by simp))

/-- The links of a computed forest close no cycle. -/
theorem acyclic_links_compute (links : List Link) : Acyclic (compute links).links :=
  (noCircuit_selection links).acyclic.mono fun _ => mem_selection_of_mem_links

end SpanningForest

end LoopGuard
