import LoopGuard.Proofs.Forest.Partition
import Mathlib.Data.Set.Card
import Mathlib.Logic.Relation

/-!
# Union by rank

`DisjointSet.after` is what a disjoint set becomes by look-ups and unions asked
for from the beginning on. Its classes are those of the equivalence that the
united pairs generate (`root_after_eq_iff`). A class is never smaller than two to
the power of the rank of its root (`populous_after`): only a union of two roots of
one rank raises a rank, and it puts two such classes together. So a rank is at most
the binary logarithm of `n`, and no look-up takes more steps than that, since each
of its steps goes to a number of greater rank (`exists_climbs`).
-/

namespace LoopGuard.DisjointSet

variable {n : Nat} {sets : DisjointSet n}

/-! ## Ranks after a union -/

theorem rank_attach {child top : Fin n} (less : sets.rank child < sets.rank top) (y : Fin n) :
    (sets.attach child top less).rank y = sets.rank y :=
  rfl

theorem rank_join (sets : DisjointSet n) {a b : Fin n} (first : sets.IsRoot a) (apart : a ≠ b)
    (y : Fin n) :
    (sets.join a b first apart).rank y =
      if sets.rank a = sets.rank b ∧ y = a then sets.rank y + 1 else sets.rank y := by
  unfold join
  split
  next less => rw [rank_attach, if_neg fun same => by omega]
  next =>
    split
    next greater => rw [rank_attach, if_neg fun same => by omega]
    next =>
      have same : sets.rank a = sets.rank b := by omega
      rw [rank_attach, rank_promote]
      grind

/-- A union of two roots of one rank raises the first of them by one, and any other
union raises none. -/
theorem rank_union (sets : DisjointSet n) (a b y : Fin n) :
    (sets.union a b).2.rank y =
      if sets.root a ≠ sets.root b ∧ sets.rank (sets.root a) = sets.rank (sets.root b) ∧
          y = sets.root a then
        sets.rank y + 1
      else sets.rank y := by
  simp only [union]
  split
  next same =>
    simp only [find_fst, root_find] at same
    simp only [rank_find, same]
    grind
  next apart =>
    simp only [find_fst, root_find] at apart
    simp only [rank_join, find_fst, root_find, rank_find]
    grind

theorem rank_le_root (sets : DisjointSet n) (x : Fin n) :
    sets.rank x ≤ sets.rank (sets.root x) := by
  fun_induction DisjointSet.root sets x with
  | case1 => exact Nat.le_refl _
  | case2 x inner ih => exact Nat.le_trans (Nat.le_of_lt (sets.rank_lt_parent inner)) ih

/-! ## Sizes of classes -/

/-- The numbers in the class of `x`. -/
def classOf (sets : DisjointSet n) (x : Fin n) : Finset (Fin n) :=
  Finset.univ.filter fun y => sets.root y = sets.root x

theorem mem_classOf {x y : Fin n} : y ∈ sets.classOf x ↔ sets.root y = sets.root x := by
  simp [classOf]

theorem disjoint_classOf {a b : Fin n} (apart : sets.root a ≠ sets.root b) :
    Disjoint (sets.classOf a) (sets.classOf b) := by
  rw [Finset.disjoint_left]
  intro y inA inB
  rw [mem_classOf] at inA inB
  exact apart (inA.symm.trans inB)

theorem classOf_union (sets : DisjointSet n) (a b x : Fin n) :
    (sets.union a b).2.classOf x =
      if sets.root x = sets.root a ∨ sets.root x = sets.root b then
        sets.classOf a ∪ sets.classOf b
      else sets.classOf x := by
  ext y
  rw [mem_classOf, root_union_eq_iff]
  split
  next => simp only [Finset.mem_union, mem_classOf]; grind
  next => simp only [mem_classOf]; grind

/-- Every class has at least two to the power of the rank of its root numbers. -/
def Populous (sets : DisjointSet n) : Prop :=
  ∀ x, 2 ^ sets.rank (sets.root x) ≤ (sets.classOf x).card

theorem populous_singletons : (singletons n).Populous := by
  intro x
  have rank : (singletons n).rank ((singletons n).root x) = 0 := by
    simp [DisjointSet.rank, singletons, Vector.get]
  have inside : x ∈ (singletons n).classOf x := mem_classOf.2 rfl
  rw [rank]
  exact Finset.card_pos.2 ⟨x, inside⟩

theorem Populous.find (populous : sets.Populous) (x : Fin n) : (sets.find x).2.Populous := by
  intro y
  have same : (sets.find x).2.classOf y = sets.classOf y := by
    ext z
    simp only [mem_classOf, root_find]
  rw [root_find, rank_find, same]
  exact populous y

/-- The root of two joined classes ranks no higher than both their sizes allow. -/
theorem two_pow_rank_upper_le (sets : DisjointSet n) (a b : Fin n) :
    2 ^ (sets.union a b).2.rank (sets.upper (sets.root a) (sets.root b)) ≤
      2 ^ sets.rank (sets.root a) + 2 ^ sets.rank (sets.root b) := by
  rw [rank_union]
  unfold upper
  split
  next less =>
    rw [if_neg fun raised => by omega]
    exact Nat.le_add_left ..
  next =>
    split
    next raised => rw [← raised.2.1, Nat.pow_succ, Nat.mul_two]
    next => exact Nat.le_add_right ..

theorem Populous.union (populous : sets.Populous) (a b : Fin n) :
    (sets.union a b).2.Populous := by
  intro x
  have bound := sets.two_pow_rank_upper_le a b
  rw [classOf_union, root_union]
  by_cases joined : sets.root x = sets.root a ∨ sets.root x = sets.root b
  · rw [if_pos joined, if_pos joined]
    by_cases apart : sets.root a = sets.root b
    -- one class is joined with itself: no rank has changed
    · have upper : sets.upper (sets.root a) (sets.root b) = sets.root a := by
        unfold DisjointSet.upper
        rw [← apart, ite_self]
      rw [upper, rank_union, if_neg fun raised => raised.1 apart]
      exact (populous a).trans (Finset.card_le_card Finset.subset_union_left)
    · calc 2 ^ (sets.union a b).2.rank (sets.upper (sets.root a) (sets.root b))
          ≤ 2 ^ sets.rank (sets.root a) + 2 ^ sets.rank (sets.root b) := bound
        _ ≤ (sets.classOf a).card + (sets.classOf b).card :=
            Nat.add_le_add (populous a) (populous b)
        _ = (sets.classOf a ∪ sets.classOf b).card :=
            (Finset.card_union_of_disjoint (disjoint_classOf apart)).symm
  · rw [if_neg joined, if_neg joined, rank_union, if_neg fun raised => joined (.inl raised.2.2)]
    exact populous x

/-- A rank is at most the binary logarithm of the number of numbers. -/
theorem Populous.rank_le_log2 (populous : sets.Populous) (x : Fin n) :
    sets.rank x ≤ Nat.log2 n := by
  rw [Nat.le_log2 (Nat.ne_of_gt x.pos)]
  calc 2 ^ sets.rank x
      ≤ 2 ^ sets.rank (sets.root x) := Nat.pow_le_pow_right Nat.zero_lt_two (sets.rank_le_root x)
    _ ≤ (sets.classOf x).card := populous x
    _ ≤ n := by simpa using Finset.card_le_univ (sets.classOf x)

/-! ## The steps of a look-up -/

/-- The loop of a look-up: as long as it does not stand at a root, it points the
number where it stands to its grandparent and goes there. -/
inductive Climbs : DisjointSet n → Fin n → Nat → Fin n × DisjointSet n → Prop
  | arrived {sets : DisjointSet n} {x : Fin n} : sets.IsRoot x → Climbs sets x 0 (x, sets)
  | climb {sets : DisjointSet n} {x : Fin n} {steps : Nat} {found : Fin n × DisjointSet n} :
    ¬ sets.IsRoot x → Climbs (sets.halve x) ((sets.halve x).parent x) steps found →
    Climbs sets x (steps + 1) found

/-- A look-up arrives, with no more steps than the root ranks above the number. -/
theorem exists_climbs (sets : DisjointSet n) (x : Fin n) :
    ∃ steps, sets.rank x + steps ≤ sets.rank (sets.root x) ∧ Climbs sets x steps (sets.find x) := by
  fun_induction DisjointSet.find sets x with
  | case1 sets x top =>
    refine ⟨0, ?_, .arrived top⟩
    rw [root_of_isRoot top]
    exact Nat.le_refl _
  | case2 sets x inner ih =>
    rcases ih with ⟨steps, bound, climbs⟩
    have higher : sets.rank x < sets.rank ((sets.halve x).parent x) := sets.rank_lt_halve inner
    rw [root_parent, root_halve, rank_halve, rank_halve] at bound
    exact ⟨steps + 1, by omega, .climb inner climbs⟩

/-! ## Calls -/

/-- What a disjoint set is asked. -/
inductive Call (n : Nat) where
  | find (x : Fin n)
  | union (a b : Fin n)
deriving DecidableEq, Repr

/-- The disjoint set that a call leaves. -/
def answer (sets : DisjointSet n) : Call n → DisjointSet n
  | .find x => (sets.find x).2
  | .union a b => (sets.union a b).2

/-- The disjoint set that calls leave from the beginning on. -/
def after (calls : List (Call n)) : DisjointSet n := calls.foldl answer (singletons n)

/-- The pairs united by some calls connect two numbers. -/
def Connected (calls : List (Call n)) : Fin n → Fin n → Prop :=
  Relation.EqvGen fun a b => Call.union a b ∈ calls

variable {calls : List (Call n)} {call : Call n} {x y : Fin n}

theorem after_concat : after (calls ++ [call]) = (after calls).answer call := by
  rw [after, after, List.foldl_concat]

theorem Connected.concat (connected : Connected calls x y) (call : Call n) :
    Connected (calls ++ [call]) x y :=
  connected.mono fun _ _ united => List.mem_append_left _ united

/-- Connected numbers agree wherever all united pairs do. -/
theorem Connected.eq_of {α : Type} {value : Fin n → α} (connected : Connected calls x y)
    (agree : ∀ a b, Call.union a b ∈ calls → value a = value b) : value x = value y := by
  induction connected with
  | rel a b united => exact agree a b united
  | refl a => rfl
  | symm a b _ ih => exact ih.symm
  | trans a b c _ _ first second => exact first.trans second

/-- Two numbers have one root exactly if the pairs united so far connect them. -/
theorem root_after_eq_iff :
    (after calls).root x = (after calls).root y ↔ Connected calls x y := by
  induction calls using List.reverseRecOn generalizing x y with
  | nil =>
    constructor
    · intro same
      rw [after, List.foldl_nil, root_singletons, root_singletons] at same
      exact same ▸ .refl x
    · intro connected
      exact connected.eq_of fun a b united => absurd united List.not_mem_nil
  | append_singleton calls call ih =>
    rw [after_concat]
    cases call with
    | find z =>
      simp only [answer, root_find, ih]
      constructor
      · intro connected
        exact connected.concat _
      · intro connected
        exact connected.mono fun a b united => by simpa using united
    | union a b =>
      simp only [answer]
      constructor
      · intro same
        have last : Connected (calls ++ [.union a b]) a b := .rel a b (by simp)
        rw [root_union_eq_iff] at same
        simp only [ih] at same
        rcases same with earlier | ⟨toA, fromB⟩ | ⟨toB, fromA⟩
        · exact earlier.concat _
        · exact ((toA.concat _).trans _ _ _ last).trans _ _ _ (fromB.concat _)
        · exact ((toB.concat _).trans _ _ _ (last.symm _ _)).trans _ _ _ (fromA.concat _)
      · intro connected
        refine connected.eq_of fun c d united => ?_
        rw [root_union_eq_iff]
        rcases List.mem_append.1 united with earlier | last
        · exact .inl (ih.2 (.rel c d earlier))
        · cases List.mem_singleton.1 last
          exact .inr (.inl ⟨rfl, rfl⟩)

theorem ncard_connected :
    {x | Connected calls x y}.ncard = ((after calls).classOf y).card := by
  rw [← Set.ncard_coe_finset]
  congr 1
  ext x
  simp only [Set.mem_ofPred_eq, Finset.mem_coe, mem_classOf, root_after_eq_iff]

theorem Populous.answer (populous : sets.Populous) (call : Call n) :
    (sets.answer call).Populous := by
  cases call with
  | find x => exact populous.find x
  | union a b => exact populous.union a b

theorem populous_after : (after calls).Populous := by
  induction calls using List.reverseRecOn with
  | nil => exact populous_singletons
  | append_singleton calls call ih =>
    rw [after_concat]
    exact ih.answer call

/-! ## What is answered -/

/-- What a disjoint set does after some calls. -/
structure Partitions (calls : List (Call n)) (sets : DisjointSet n) : Prop where
  /-- Whatever is looked up, its loop comes to an end soon. -/
  arrives (x : Fin n) : ∃ steps ≤ Nat.log2 n, Climbs sets x steps (sets.find x)
  /-- What is found is the one root of the class, and stays a root. -/
  finds (x r : Fin n) :
    (sets.find x).1 = r ↔ Connected calls x r ∧ sets.IsRoot r ∧ (sets.find x).2.IsRoot r
  finds_alike (x y : Fin n) : (sets.find x).1 = (sets.find y).1 ↔ Connected calls x y
  joins (a b : Fin n) : (sets.union a b).1 = true ↔ ¬ Connected calls a b
  /-- Neither one halving nor a whole look-up moves a number to another class. -/
  halving (x y : Fin n) : ((sets.halve x).find y).1 = (sets.find y).1
  finding (x y : Fin n) : ((sets.find x).2.find y).1 = (sets.find y).1
  parent_lt (x : Fin n) : (sets.parent x).val < n
  members (r : Fin n) : sets.IsRoot r → 2 ^ sets.rank r ≤ {x | Connected calls x r}.ncard
  rank_le (x : Fin n) : sets.rank x ≤ Nat.log2 n
  /-- A byte is enough for the rank that a union raises. -/
  fits (a b x : Fin n) : n < 2 ^ 256 → (sets.union a b).2.rank x < UInt8.size

/-- Whatever look-ups and unions were asked for from the beginning on, a disjoint set
tells apart what the united pairs do not connect, finds a root within `log2 n` steps
and keeps ranks that fit into a byte. -/
theorem partitions_after (calls : List (Call n)) : Partitions calls (after calls) := by
  constructor
  case arrives =>
    intro x
    rcases exists_climbs (after calls) x with ⟨steps, bound, climbs⟩
    have top : (after calls).rank ((after calls).root x) ≤ Nat.log2 n :=
      populous_after.rank_le_log2 _
    exact ⟨steps, by omega, climbs⟩
  case finds =>
    intro x r
    rw [find_fst, ← root_after_eq_iff]
    constructor
    · intro found
      subst found
      have root : (after calls).IsRoot ((after calls).root x) := isRoot_root _ x
      exact ⟨(root_root _ x).symm, root, root.find⟩
    · intro ⟨same, root, _⟩
      rw [same, root_of_isRoot root]
  case finds_alike =>
    intro x y
    rw [find_fst, find_fst, root_after_eq_iff]
  case joins =>
    intro a b
    rw [union_fst, ne_eq, root_after_eq_iff]
  case halving =>
    intro x y
    rw [find_fst, find_fst, root_halve]
  case finding =>
    intro x y
    rw [find_fst, find_fst, root_find]
  case parent_lt =>
    intro x
    exact ((after calls).parent x).isLt
  case members =>
    intro r root
    have populous : 2 ^ (after calls).rank ((after calls).root r) ≤
        ((after calls).classOf r).card := populous_after r
    rwa [root_of_isRoot root, ← ncard_connected] at populous
  case rank_le =>
    intro x
    exact populous_after.rank_le_log2 x
  case fits =>
    intro a b x small
    have joined : (after (calls ++ [.union a b])).rank x ≤ Nat.log2 n :=
      populous_after.rank_le_log2 x
    rw [after_concat] at joined
    exact Nat.lt_of_le_of_lt joined ((Nat.log2_lt (Nat.ne_of_gt x.pos)).2 small)

/-- Two rounds of a tournament between four numbers, and a number that waits. -/
def tournament : List (Call 5) := [.union 0 1, .union 2 3, .find 4, .union 0 2]

theorem tournament_winner_has_rank_two :
    (after tournament).IsRoot 0 ∧ (after tournament).rank 0 = 2 ∧
      2 ^ 2 ≤ {x | Connected tournament x 0}.ncard ∧ 2 ≤ Nat.log2 5 ∧
      Connected tournament 3 1 ∧ ¬ Connected tournament 3 4 ∧ (5 < 2 ^ 256) ∧
      ((after tournament).union 0 4).2.rank 0 < UInt8.size := by
  have partitions : Partitions tournament (after tournament) := partitions_after tournament
  have root : (after tournament).IsRoot 0 := by decide +kernel
  have rank : (after tournament).rank 0 = 2 := by decide +kernel
  have members := partitions.members 0 root
  have bound := partitions.rank_le 0
  rw [rank] at members bound
  have alike : ((after tournament).find 3).1 = ((after tournament).find 1).1 := by decide +kernel
  have apart : ((after tournament).union 3 4).1 = true := by decide +kernel
  have small : 5 < 2 ^ 256 := by decide
  exact ⟨root, rank, members, bound, (partitions.finds_alike 3 1).1 alike,
    (partitions.joins 3 4).1 apart, small, partitions.fits 0 4 0 small⟩

end LoopGuard.DisjointSet
