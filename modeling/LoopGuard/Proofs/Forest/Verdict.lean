import LoopGuard.Proofs.Forest.Tree

/-!
# What the check of a forest says

The check accepts exactly the forests of trees that share no switch, and what it gives
as its reason when it refuses is so (`SpanningForest.verdict_is_true`): the tree it
speaks of is at fault in just that way, and all trees before that one are in order. No
forest with any such fault is accepted, however many others it has.

The scan of the links knows only classes of numbers. `checkLinks_eq_error` says what it
found in terms of the links themselves, and the other lemmas follow the check outwards
from there.
-/

namespace LoopGuard

/-- The tree at this position, after trees that have the `seen` switches, is at fault in
the way that the violation tells. -/
def SpanningTree.AtFault (tree : SpanningTree) (position : Nat) (seen : Set NodeId) :
    ForestViolation → Prop
  | .edgeCount place nodes links =>
    place = position ∧ nodes = tree.nodes.count ∧ links = tree.links.length ∧ links + 1 ≠ nodes
  | .foreignEndpoint id => ∃ link ∈ tree.links, link.id = id ∧
    ¬(link.source.node ∈ tree.nodes ∧ link.destination.node ∈ tree.nodes)
  | .cycle id => ∃ earlier link later, tree.links = earlier ++ link :: later ∧ link.id = id ∧
    Linked earlier link.source.node link.destination.node
  | .sharedNode node => node ∈ tree.nodes ∧ node ∈ seen

/-- The switches of the trees. -/
def switchesOf (trees : List SpanningTree) : Set NodeId := {a | ∃ tree ∈ trees, a ∈ tree.nodes}

variable {n : Nat} {index : Std.ExtTreeMap NodeId (Fin n)} {sets : DisjointSet n}
  {before links : List Link} {violation : ForestViolation}

/-! ## One tree -/

namespace SpanningTree

open SpanningForest

/-- The scan stops at a link that leaves the index or that the links before it close. -/
theorem checkLinks_eq_error (reflects : Reflects index sets before)
    (found : checkLinks index sets links = .error violation) :
    ∃ earlier link later, links = earlier ++ link :: later ∧
      ((violation = .foreignEndpoint link.id ∧ ¬Indexed index link) ∨
        (violation = .cycle link.id ∧
          Linked (earlier.reverse ++ before) link.source.node link.destination.node)) := by
  induction links generalizing before sets with
  | nil => cases found
  | cons link rest ih =>
    rw [checkLinks] at found
    split at found
    next i j source destination =>
      simp only at found
      split at found
      next =>
        obtain ⟨earlier, later, after, rfl, fault⟩ := ih (reflects.union source destination) found
        exact ⟨link :: earlier, later, after, rfl, by simpa using fault⟩
      next closed =>
        refine ⟨[], link, rest, rfl, .inr ⟨(Except.error.inj found).symm, ?_⟩⟩
        rw [DisjointSet.union_fst, not_not] at closed
        exact (reflects _ _ i j source destination).1 closed
    next missing =>
      refine ⟨[], link, rest, rfl, .inl ⟨(Except.error.inj found).symm, ?_⟩⟩
      rintro ⟨⟨i, source⟩, ⟨j, destination⟩⟩
      exact missing i j source destination

variable {tree : SpanningTree} {position : Nat} {seen : Set NodeId}

theorem check_eq_error (found : tree.check position = .error violation) :
    tree.AtFault position seen violation := by
  rw [check] at found
  split at found
  next =>
    obtain ⟨earlier, link, later, links, ⟨rfl, foreign⟩ | ⟨rfl, linked⟩⟩ :=
      checkLinks_eq_error (reflects_singletons tree.nodes) found
    · exact ⟨link, links ▸ List.mem_append_right _ List.mem_cons_self, rfl,
        mt indexed_iff.2 foreign⟩
    · exact ⟨earlier, link, later, links, rfl, (linked_congr (by simp)).1 linked⟩
  next length =>
    obtain rfl := Except.error.inj found
    exact ⟨rfl, rfl, rfl, length⟩

/-- A tree that is at fault is no tree, or has a switch that was seen. -/
theorem AtFault.exists_seen (fault : tree.AtFault position seen violation) (isTree : tree.IsTree) :
    ∃ a ∈ tree.nodes, a ∈ seen := by
  cases violation with
  | edgeCount =>
    obtain ⟨_, rfl, rfl, length⟩ := fault
    exact absurd isTree.length_links length
  | foreignEndpoint =>
    obtain ⟨link, mem, _, foreign⟩ := fault
    exact absurd (isTree.within link mem) foreign
  | cycle =>
    obtain ⟨earlier, link, later, links, _, linked⟩ := fault
    have part : (link :: earlier).Subperm tree.links := by
      rw [links]
      exact ((List.sublist_append_left earlier later).cons_cons link).subperm.trans
        List.perm_middle.symm.subperm
    exact absurd linked (noCircuit_cons_iff.1 (isTree.noCircuit.mono part)).2
  | sharedNode node => exact ⟨node, fault⟩

end SpanningTree

/-! ## The forest -/

namespace SpanningForest

variable {forest : SpanningForest} {trees : List SpanningTree}

/-- The check stops at a tree at fault, after trees that it accepts. -/
theorem verifyFrom_eq_error {position : Nat} {seen : NodeSet}
    (found : verifyFrom position seen trees = .error violation) :
    ∃ earlier tree later, trees = earlier ++ tree :: later ∧
      verifyFrom position seen earlier = .ok () ∧
      tree.AtFault (position + earlier.length) ({a | a ∈ seen} ∪ switchesOf earlier) violation := by
  induction trees generalizing position seen with
  | nil => cases found
  | cons tree rest ih =>
    rw [verifyFrom] at found
    split at found
    next reason refused =>
      obtain rfl := Except.error.inj found
      exact ⟨[], tree, rest, rfl, rfl, SpanningTree.check_eq_error refused⟩
    next accepted =>
      split at found
      next node shared =>
        obtain rfl := Except.error.inj found
        refine ⟨[], tree, rest, rfl, rfl, ?_, .inl ?_⟩
        · exact Std.ExtTreeSet.mem_toList.1 (List.mem_of_find?_eq_some shared)
        · simpa using List.find?_some shared
      next fresh =>
        -- the rest of the check has seen this tree's switches, too
        obtain ⟨earlier, late, later, rfl, passed, fault⟩ := ih found
        refine ⟨tree :: earlier, late, later, rfl, ?_, ?_⟩
        · rw [verifyFrom, accepted]
          simpa only [fresh] using passed
        · have place : position + (tree :: earlier).length = position + 1 + earlier.length := by
            rw [List.length_cons]
            omega
          have together : {a | a ∈ seen} ∪ switchesOf (tree :: earlier) =
              {a | a ∈ seen ∪ tree.nodes} ∪ switchesOf earlier := by
            ext a
            simp [switchesOf, or_assoc]
          rwa [place, together]

/-- A forest with a tree at fault is refused. -/
theorem verify_ne_ok_of_atFault {earlier later : List SpanningTree} {tree : SpanningTree}
    (split : forest.trees = earlier ++ tree :: later)
    (fault : tree.AtFault earlier.length (switchesOf earlier) violation) :
    forest.verify ≠ .ok () := by
  intro verified
  obtain ⟨isTree, apart⟩ := verify_eq_ok_iff.1 verified
  rw [split] at isTree apart
  obtain ⟨a, here, other, mem, there⟩ := fault.exists_seen (isTree tree (by simp))
  have disjoint := (List.pairwise_append.1 apart).2.2 other mem tree List.mem_cons_self
  exact disjoint a there here

/-- The check accepts a forest exactly if each of its trees has a switch, keeps its links
within its switches, joins all of them and has no circuit, and no two trees share a
switch. If it refuses the forest, the violation it names is there: the tree at that
position has not one link fewer than switches, or has the named link with an end outside
of it, or its links before the named one join that one's ends already, or an earlier
tree has the named switch, too; and the trees before this one would pass by themselves.
A forest in which any violation is there is refused. -/
theorem verdict_is_true (forest : SpanningForest) :
    (forest.verify = .ok () ↔
        (∀ tree ∈ forest.trees, tree.IsTree) ∧ forest.trees.Pairwise SpanningTree.Apart) ∧
      (∀ violation, forest.verify = .error violation →
        ∃ earlier tree later, forest.trees = earlier ++ tree :: later ∧
          verify ⟨earlier⟩ = .ok () ∧
          tree.AtFault earlier.length (switchesOf earlier) violation) ∧
      ∀ earlier tree later violation, forest.trees = earlier ++ tree :: later →
        tree.AtFault earlier.length (switchesOf earlier) violation → forest.verify ≠ .ok () := by
  refine ⟨verify_eq_ok_iff, fun violation found => ?_,
    fun _ _ _ _ split fault => verify_ne_ok_of_atFault split fault⟩
  obtain ⟨earlier, tree, later, split, passed, fault⟩ := verifyFrom_eq_error found
  refine ⟨earlier, tree, later, split, passed, ?_⟩
  simpa using fault

/-- The second tree shares `B` with the first and has a link that leaves it, but the loop
stands before that link, and links are looked at before switches. -/
example :
    verify
      ⟨[{ nodes := ((∅ : NodeSet).insert ⟨"A"⟩).insert ⟨"B"⟩
          links := [⟨⟨"ab"⟩, .of "A" "1", .of "B" "1"⟩] },
        { nodes := (((∅ : NodeSet).insert ⟨"B"⟩).insert ⟨"C"⟩).insert ⟨"D"⟩
          links := [⟨⟨"loop"⟩, .of "C" "1", .of "C" "2"⟩, ⟨⟨"out"⟩, .of "D" "1", .of "A" "2"⟩] }]⟩ =
      .error (.cycle ⟨"loop"⟩) := by
  decide +kernel

end SpanningForest

end LoopGuard
