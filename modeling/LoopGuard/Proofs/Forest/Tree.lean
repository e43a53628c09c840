import LoopGuard.Forest.Verify
import LoopGuard.Proofs.Forest.Choice
import LoopGuard.Proofs.Forest.Circuit

/-!
# Trees that pass the check

A tree is what its name says when its links stay within its switches, join all of
them and have no circuit (`SpanningTree.IsTree`). The check looks at less: it counts
the links and scans them once. `check_eq_ok_iff` shows that this is enough, since
links without a circuit leave one class less each, so that one link fewer than
switches is as many as it takes to leave a single class
(`IsTree.length_links`). A forest passes if its trees do and share no switch
(`SpanningForest.verify_eq_ok_iff`); then it has no circuit as a whole.
-/

namespace LoopGuard

namespace NodeSet

variable {nodes : NodeSet} {a : NodeId}

/-- The switches that have a number are the members. -/
theorem mem_iff_exists_index : a ∈ nodes ↔ ∃ i, nodes.index[a]? = some i := by
  refine ⟨exists_getElem?_index, ?_⟩
  rintro ⟨i, at_i⟩
  rw [getElem?_index] at at_i
  exact Std.ExtTreeSet.mem_toList.1 (at_i ▸ List.get_mem _ _)

theorem count_pos_iff : 0 < nodes.count ↔ ∃ a, a ∈ nodes := by
  rw [count, List.length_pos_iff_exists_mem]
  simp only [Std.ExtTreeSet.mem_toList]

end NodeSet

/-! ## Classes and circuits -/

section Classes

variable {n : Nat} {index : Std.ExtTreeMap NodeId (Fin n)} {sets : DisjointSet n}
  {before links : List Link}

open SpanningForest

/-- Each growing link takes one class away. -/
theorem Growing.exists_reflects (growing : Growing before links)
    (reflects : Reflects index sets before) (indexed : ∀ link ∈ links, Indexed index link) :
    ∃ joined : DisjointSet n, Reflects index joined (links.reverse ++ before) ∧
      joined.roots.card + links.length = sets.roots.card := by
  induction links generalizing before sets with
  | nil => exact ⟨sets, reflects, rfl⟩
  | cons link rest ih =>
    rw [List.forall_mem_cons] at indexed
    obtain ⟨⟨⟨i, source⟩, ⟨j, destination⟩⟩, others⟩ := indexed
    obtain ⟨apart, later⟩ := growing
    obtain ⟨joined, final, count⟩ := ih later (reflects.union source destination) others
    have roots : sets.root i ≠ sets.root j := fun same =>
      apart ((reflects _ _ i j source destination).1 same)
    refine ⟨joined, by simpa using final, ?_⟩
    rw [← DisjointSet.card_roots_union roots, ← count, List.length_cons, Nat.add_assoc]

/-- The scan of the check accepts links that stay within the index and grow. -/
theorem SpanningTree.checkLinks_eq_ok_iff (reflects : Reflects index sets before) :
    checkLinks index sets links = .ok () ↔
      (∀ link ∈ links, Indexed index link) ∧ Growing before links := by
  induction links generalizing before sets with
  | nil => simp [checkLinks, Growing]
  | cons link rest ih =>
    rw [List.forall_mem_cons, checkLinks]
    split
    next i j source destination =>
      have indexed : Indexed index link := ⟨⟨i, source⟩, ⟨j, destination⟩⟩
      have apart : (sets.union i j).1 = true ↔
          ¬Linked before link.source.node link.destination.node := by
        rw [DisjointSet.union_fst, Ne, reflects _ _ i j source destination]
      simp only [Growing]
      split
      next joined =>
        rw [ih (reflects.union source destination)]
        simp [indexed, apart.1 joined]
      next closed =>
        simp [mt apart.2 closed]
    next missing =>
      simp only [reduceCtorEq, false_iff]
      rintro ⟨⟨⟨⟨i, source⟩, ⟨j, destination⟩⟩, _⟩, _⟩
      exact missing i j source destination

end Classes

/-! ## One tree -/

namespace SpanningTree

/-- The links stay within the switches, lead from each to every other, and have no
circuit. -/
structure IsTree (tree : SpanningTree) : Prop where
  nonempty : ∃ a, a ∈ tree.nodes
  within : ∀ link ∈ tree.links,
    link.source.node ∈ tree.nodes ∧ link.destination.node ∈ tree.nodes
  connected : ∀ a ∈ tree.nodes, ∀ b ∈ tree.nodes, Linked tree.links a b
  noCircuit : NoCircuit tree.links

variable {tree : SpanningTree}

theorem indexed_iff {link : Link} : SpanningForest.Indexed tree.nodes.index link ↔
    link.source.node ∈ tree.nodes ∧ link.destination.node ∈ tree.nodes := by
  rw [SpanningForest.Indexed, ← NodeSet.mem_iff_exists_index, ← NodeSet.mem_iff_exists_index]

/-- Links within the switches and without a circuit join all of them exactly if
there is one link fewer than switches. -/
theorem connected_iff_length (growing : Growing [] tree.links)
    (within : ∀ link ∈ tree.links,
      link.source.node ∈ tree.nodes ∧ link.destination.node ∈ tree.nodes) :
    ((∃ a, a ∈ tree.nodes) ∧ ∀ a ∈ tree.nodes, ∀ b ∈ tree.nodes, Linked tree.links a b) ↔
      tree.links.length + 1 = tree.nodes.count := by
  obtain ⟨joined, reflects, count⟩ := growing.exists_reflects
    (SpanningForest.reflects_singletons tree.nodes) fun link mem => indexed_iff.2 (within link mem)
  rw [DisjointSet.card_roots_singletons] at count
  have linked (a b : NodeId) (i j : Fin tree.nodes.count)
      (at_i : tree.nodes.index[a]? = some i) (at_j : tree.nodes.index[b]? = some j) :
      joined.root i = joined.root j ↔ Linked tree.links a b := by
    rw [reflects a b i j at_i at_j]
    exact linked_congr (by simp)
  have one : joined.roots.card = 1 ↔
      (∃ a, a ∈ tree.nodes) ∧ ∀ a ∈ tree.nodes, ∀ b ∈ tree.nodes, Linked tree.links a b := by
    rw [DisjointSet.card_roots_eq_one_iff, NodeSet.count_pos_iff]
    refine and_congr_right fun _ => ⟨fun same a mem b mem' => ?_, fun all i j => ?_⟩
    · obtain ⟨i, at_i⟩ := NodeSet.exists_getElem?_index mem
      obtain ⟨j, at_j⟩ := NodeSet.exists_getElem?_index mem'
      exact (linked a b i j at_i at_j).1 (same i j)
    · have member (k : Fin tree.nodes.count) : tree.nodes.toList.get k ∈ tree.nodes :=
        Std.ExtTreeSet.mem_toList.1 (List.get_mem _ _)
      exact (linked _ _ i j (NodeSet.getElem?_index.2 rfl) (NodeSet.getElem?_index.2 rfl)).2
        (all _ (member i) _ (member j))
  rw [← one]
  omega

theorem IsTree.length_links (isTree : tree.IsTree) :
    tree.links.length + 1 = tree.nodes.count :=
  (connected_iff_length (noCircuit_iff_growing.1 isTree.noCircuit) isTree.within).1
    ⟨isTree.nonempty, isTree.connected⟩

/-- The check accepts exactly the trees. -/
theorem check_eq_ok_iff {position : Nat} : tree.check position = .ok () ↔ tree.IsTree := by
  have scan : checkLinks tree.nodes.index (.singletons tree.nodes.count) tree.links = .ok () ↔
      (∀ link ∈ tree.links, SpanningForest.Indexed tree.nodes.index link) ∧
        Growing [] tree.links :=
    checkLinks_eq_ok_iff (SpanningForest.reflects_singletons tree.nodes)
  simp only [indexed_iff] at scan
  constructor
  · intro accepted
    rw [check] at accepted
    split at accepted
    next length =>
      obtain ⟨within, growing⟩ := scan.1 accepted
      obtain ⟨nonempty, connected⟩ := (connected_iff_length growing within).2 length
      exact ⟨nonempty, within, connected, noCircuit_iff_growing.2 growing⟩
    next => cases accepted
  · intro isTree
    rw [check, if_pos isTree.length_links, scan]
    exact ⟨isTree.within, noCircuit_iff_growing.1 isTree.noCircuit⟩

/-- No switch belongs to both trees. -/
def Apart (tree other : SpanningTree) : Prop := ∀ a ∈ tree.nodes, a ∉ other.nodes

end SpanningTree

/-! ## Forests -/

namespace SpanningForest

variable {forest : SpanningForest} {trees : List SpanningTree} {seen : NodeSet}

theorem verifyFrom_eq_ok_iff {position : Nat} :
    verifyFrom position seen trees = .ok () ↔
      (∀ tree ∈ trees, tree.IsTree ∧ ∀ a ∈ tree.nodes, a ∉ seen) ∧
        trees.Pairwise SpanningTree.Apart := by
  induction trees generalizing position seen with
  | nil => simp [verifyFrom]
  | cons tree rest ih =>
    have fresh : tree.nodes.toList.find? seen.contains = none ↔ ∀ a ∈ tree.nodes, a ∉ seen := by
      simp [List.find?_eq_none, Std.ExtTreeSet.mem_toList]
    rw [verifyFrom, List.forall_mem_cons, List.pairwise_cons]
    cases checked : tree.check position with
    | error violation =>
      have broken : ¬tree.IsTree := fun isTree => by
        rw [SpanningTree.check_eq_ok_iff.2 isTree] at checked
        cases checked
      simp [broken]
    | ok =>
      have isTree := SpanningTree.check_eq_ok_iff.1 checked
      cases found : tree.nodes.toList.find? seen.contains with
      | some node =>
        have shared : ¬∀ a ∈ tree.nodes, a ∉ seen := fun all => by
          rw [fresh.2 all] at found
          cases found
        simp [shared]
      | none =>
        simp only [ih, Std.ExtTreeSet.mem_union_iff, not_or, isTree]
        simp only [SpanningTree.Apart]
        grind

/-- The check accepts exactly the forests of trees that share no switch. -/
theorem verify_eq_ok_iff :
    forest.verify = .ok () ↔
      (∀ tree ∈ forest.trees, tree.IsTree) ∧ forest.trees.Pairwise SpanningTree.Apart := by
  rw [verify, verifyFrom_eq_ok_iff]
  simp

/-- Trees that share no switch have no circuit together. -/
theorem noCircuit_flatMap_links (isTree : ∀ tree ∈ trees, tree.IsTree)
    (apart : trees.Pairwise SpanningTree.Apart) : NoCircuit (trees.flatMap (·.links)) := by
  induction trees with
  | nil => exact noCircuit_nil
  | cons tree rest ih =>
    rw [List.forall_mem_cons] at isTree
    rw [List.pairwise_cons] at apart
    rw [List.flatMap_cons]
    refine isTree.1.noCircuit.append (ih isTree.2 apart.2) isTree.1.within fun link mem => ?_
    obtain ⟨other, mem', mem⟩ := List.mem_flatMap.1 mem
    obtain ⟨source, destination⟩ := (isTree.2 other mem').within link mem
    exact ⟨fun here => apart.1 other mem' _ here source,
      fun here => apart.1 other mem' _ here destination⟩

/-- Trees have as many links as switches, but for one each. -/
theorem length_flatMap_links_add_length (isTree : ∀ tree ∈ trees, tree.IsTree) :
    (trees.flatMap (·.links)).length + trees.length =
      (trees.flatMap (·.nodes.toList)).length := by
  induction trees with
  | nil => rfl
  | cons tree rest ih =>
    rw [List.forall_mem_cons] at isTree
    have first := isTree.1.length_links
    have others := ih isTree.2
    rw [NodeSet.count] at first
    simp only [List.flatMap_cons, List.length_append, List.length_cons]
    omega

/-- A forest that passes the check has no circuit. -/
theorem noCircuit_links_of_verify (verified : forest.verify = .ok ()) : NoCircuit forest.links :=
  noCircuit_flatMap_links (verify_eq_ok_iff.1 verified).1 (verify_eq_ok_iff.1 verified).2

end SpanningForest

end LoopGuard
