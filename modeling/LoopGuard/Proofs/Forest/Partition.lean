import LoopGuard.Forest.DisjointSet
import Mathlib.Data.Fintype.Card

/-!
# The partition behind a disjoint set

Two numbers are in one class when their walks end at one root. Looking a number
up shortens walks but moves no number to another class (`root_find`), and
`union` puts the classes of its two arguments, and no others, under the `upper` of
their roots (`root_union`, `root_union_eq_iff`), which leaves one class less if they
were apart (`union_fst`, `card_roots_union`). These are the only facts about ranks
and pointers that the theory of forests needs.
-/

namespace LoopGuard.DisjointSet

variable {n : Nat} {sets : DisjointSet n}

/-! ## Roots -/

theorem root_of_isRoot {x : Fin n} (h : sets.IsRoot x) : sets.root x = x := by
  rw [root, dif_pos h]

theorem root_parent (sets : DisjointSet n) (x : Fin n) :
    sets.root (sets.parent x) = sets.root x := by
  by_cases h : sets.IsRoot x
  · rw [h]
  · exact (by rw [root, dif_neg h] : sets.root x = sets.root (sets.parent x)).symm

theorem root_singletons (x : Fin n) : (singletons n).root x = x :=
  root_of_isRoot (isRoot_singletons x)

/-! ## Looking up -/

/-- Pointing `x` to its grandparent leaves every number below its root. -/
theorem root_halve (sets : DisjointSet n) (x y : Fin n) :
    (sets.halve x).root y = sets.root y := by
  fun_induction DisjointSet.root sets y with
  | case1 y top => exact root_of_isRoot top.halve
  | case2 y inner ih =>
    rw [← root_parent, parent_halve]
    by_cases same : x = y
    · subst same
      rw [if_pos rfl]
      by_cases top : sets.IsRoot (sets.parent x)
      · rw [top, ih]
      -- the grandparent is below the parent in the induction, one parent further up
      · have step := root_parent (sets.halve x) (sets.parent x)
        have apart : x ≠ sets.parent x := fun same => inner same.symm
        rw [parent_halve, if_neg apart] at step
        rw [step, ih]
    · rw [if_neg same, ih]

/-- A look-up finds the root. -/
theorem find_fst (sets : DisjointSet n) (x : Fin n) : (sets.find x).1 = sets.root x := by
  fun_induction DisjointSet.find sets x with
  | case1 sets x top => exact (root_of_isRoot top).symm
  | case2 sets x inner ih => rw [ih, root_halve, parent_halve, if_pos rfl, root_parent, root_parent]

/-- A look-up changes no class. -/
theorem root_find (sets : DisjointSet n) (x y : Fin n) :
    (sets.find x).2.root y = sets.root y := by
  fun_induction DisjointSet.find sets x with
  | case1 => rfl
  | case2 sets x _ ih => rw [ih, root_halve]

theorem rank_halve (sets : DisjointSet n) (x y : Fin n) : (sets.halve x).rank y = sets.rank y :=
  rfl

/-- A look-up changes no rank. -/
theorem rank_find (sets : DisjointSet n) (x y : Fin n) :
    (sets.find x).2.rank y = sets.rank y := by
  fun_induction DisjointSet.find sets x with
  | case1 => rfl
  | case2 sets x _ ih => rw [ih, rank_halve]

/-! ## Joining -/

theorem root_attach {child top : Fin n} {less : sets.rank child < sets.rank top}
    (low : sets.IsRoot child) (high : sets.IsRoot top) (y : Fin n) :
    (sets.attach child top less).root y = if sets.root y = child then top else sets.root y := by
  have apart : child ≠ top := by
    rintro rfl
    exact Nat.lt_irrefl _ less
  fun_induction DisjointSet.root sets y with
  | case1 y root =>
    by_cases same : child = y
    · subst same
      rw [if_pos rfl, ← root_parent, parent_attach, if_pos rfl]
      exact root_of_isRoot (by rw [IsRoot, parent_attach, if_neg apart, high])
    · rw [if_neg (Ne.symm same)]
      exact root_of_isRoot (by rw [IsRoot, parent_attach, if_neg same, root])
  | case2 y inner ih =>
    have same : child ≠ y := by
      rintro rfl
      exact inner low
    rw [← ih, ← root_parent (sets.attach child top less) y, parent_attach, if_neg same]

theorem root_promote {top : Fin n} (root : sets.IsRoot top) (y : Fin n) :
    (sets.promote top root).root y = sets.root y := by
  fun_induction DisjointSet.root sets y with
  | case1 y h => exact root_of_isRoot h
  | case2 y _ ih => exact (root_parent (sets.promote top root) y).symm.trans ih

/-- Of two roots, the one that stays a root when their classes are joined. -/
def upper (sets : DisjointSet n) (a b : Fin n) : Fin n :=
  if sets.rank a < sets.rank b then b else a

theorem upper_eq_or (sets : DisjointSet n) (a b : Fin n) :
    sets.upper a b = a ∨ sets.upper a b = b := by
  unfold upper
  split
  · exact .inr rfl
  · exact .inl rfl

/-- Joining two roots puts their classes under the upper of the two. -/
theorem root_join (sets : DisjointSet n) {a b : Fin n} (first : sets.IsRoot a)
    (second : sets.IsRoot b) (apart : a ≠ b) (y : Fin n) :
    (sets.join a b first apart).root y =
      if sets.root y = a ∨ sets.root y = b then sets.upper a b else sets.root y := by
  unfold join upper
  split
  · rw [root_attach first second]
    grind
  · split
    · rw [root_attach second first]
      grind
    · have low : (sets.promote a first).IsRoot b := second
      rw [root_attach low first, root_promote]
      grind

/-- A union reports whether its arguments were in different classes. -/
theorem union_fst (sets : DisjointSet n) (a b : Fin n) :
    (sets.union a b).1 = true ↔ sets.root a ≠ sets.root b := by
  simp only [union]
  split
  next same => simpa [find_fst, root_find] using same
  next apart => simpa [find_fst, root_find] using apart

/-- A union puts the classes of its arguments under the upper of their two roots. -/
theorem root_union (sets : DisjointSet n) (a b y : Fin n) :
    (sets.union a b).2.root y =
      if sets.root y = sets.root a ∨ sets.root y = sets.root b then
        sets.upper (sets.root a) (sets.root b)
      else sets.root y := by
  simp only [union]
  split
  next same =>
    simp only [find_fst, root_find] at same ⊢
    rcases sets.upper_eq_or (sets.root a) (sets.root b) with upper | upper
    · grind
    · grind
  next apart =>
    rw [root_join _ _ (isRoot_find (sets.find a).2 b)]
    simp only [upper, find_fst, root_find, rank_find]

/-- After a union two numbers share a class exactly if they did before, or if
the two arguments link them. -/
theorem root_union_eq_iff (sets : DisjointSet n) (a b x y : Fin n) :
    (sets.union a b).2.root x = (sets.union a b).2.root y ↔
      sets.root x = sets.root y ∨ (sets.root x = sets.root a ∧ sets.root b = sets.root y) ∨
        (sets.root x = sets.root b ∧ sets.root a = sets.root y) := by
  rw [root_union, root_union]
  rcases sets.upper_eq_or (sets.root a) (sets.root b) with upper | upper
  · grind
  · grind

/-! ## Counting classes -/

theorem isRoot_root (sets : DisjointSet n) (x : Fin n) : sets.IsRoot (sets.root x) := by
  fun_induction DisjointSet.root sets x with
  | case1 x top => exact top
  | case2 x _ ih => exact ih

theorem root_root (sets : DisjointSet n) (x : Fin n) : sets.root (sets.root x) = sets.root x :=
  root_of_isRoot (sets.isRoot_root x)

/-- The roots, one for each class. -/
def roots (sets : DisjointSet n) : Finset (Fin n) := Finset.univ.filter fun x => sets.root x = x

theorem mem_roots {x : Fin n} : x ∈ sets.roots ↔ sets.root x = x := by
  simp [roots]

theorem card_roots_singletons : (singletons n).roots.card = n := by
  simp [roots, root_singletons]

/-- A union of two classes leaves one class less. -/
theorem card_roots_union {a b : Fin n} (apart : sets.root a ≠ sets.root b) :
    (sets.union a b).2.roots.card + 1 = sets.roots.card := by
  obtain ⟨gone, root, roots⟩ : ∃ gone ∈ sets.roots, (sets.union a b).2.roots =
      sets.roots.erase gone := by
    rcases sets.upper_eq_or (sets.root a) (sets.root b) with upper | upper
    · refine ⟨sets.root b, mem_roots.2 (sets.root_root b), ?_⟩
      ext y
      rw [mem_roots, root_union, Finset.mem_erase, mem_roots]
      grind [root_root]
    · refine ⟨sets.root a, mem_roots.2 (sets.root_root a), ?_⟩
      ext y
      rw [mem_roots, root_union, Finset.mem_erase, mem_roots]
      grind [root_root]
  rw [roots]
  exact Finset.card_erase_add_one root

/-- There is one class exactly if there is a number and all share its root. -/
theorem card_roots_eq_one_iff :
    sets.roots.card = 1 ↔ 0 < n ∧ ∀ x y, sets.root x = sets.root y := by
  rw [Finset.card_eq_one]
  constructor
  · rintro ⟨top, roots⟩
    have all (x : Fin n) : sets.root x = top := by
      have root : sets.root x ∈ sets.roots := mem_roots.2 (sets.root_root x)
      rwa [roots, Finset.mem_singleton] at root
    exact ⟨top.pos, fun x y => (all x).trans (all y).symm⟩
  · rintro ⟨some, same⟩
    refine ⟨sets.root ⟨0, some⟩, Finset.ext fun x => ?_⟩
    rw [mem_roots, Finset.mem_singleton, same ⟨0, some⟩ x]
    exact eq_comm

end LoopGuard.DisjointSet
