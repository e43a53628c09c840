/-!
# Disjoint sets

A partition of the numbers below `n`, kept as a forest of parent pointers. A
number whose parent is itself is a root and names its class. Every other number
has a parent of greater rank, so following parents ends; `find` also makes each
second number on its way point to its grandparent, which changes no class.
`union` hangs the root of lesser rank below the other one.
-/

namespace LoopGuard

/-- A partition of the numbers below `n`. -/
structure DisjointSet (n : Nat) where
  parents : Vector (Fin n) n
  ranks : Vector Nat n
  rank_lt : ∀ x : Fin n, parents.get x ≠ x → ranks.get x < ranks.get (parents.get x)

namespace DisjointSet

variable {n : Nat}

def parent (sets : DisjointSet n) (x : Fin n) : Fin n := sets.parents.get x

/-- The rank of `x`, which bounds the walks that end in it. -/
def rank (sets : DisjointSet n) (x : Fin n) : Nat := sets.ranks.get x

/-- Whether the number names its class. -/
abbrev IsRoot (sets : DisjointSet n) (x : Fin n) : Prop := sets.parent x = x

theorem rank_lt_parent (sets : DisjointSet n) {x : Fin n} (h : ¬ sets.IsRoot x) :
    sets.rank x < sets.rank (sets.parent x) :=
  sets.rank_lt x h

/-- No parent ranks below its child. -/
theorem rank_le_parent (sets : DisjointSet n) (x : Fin n) :
    sets.rank x ≤ sets.rank (sets.parent x) := by
  by_cases h : sets.IsRoot x
  · exact Nat.le_of_eq (congrArg sets.rank h.symm)
  · exact Nat.le_of_lt (sets.rank_lt_parent h)

private theorem get_eq {α : Type} (v : Vector α n) (i : Fin n) : v.get i = v[i.1] := rfl

private theorem get_set {α : Type} (v : Vector α n) (i j : Fin n) (a : α) :
    (v.set i a).get j = if i = j then a else v.get j := by
  simp [get_eq, Vector.getElem_set, Fin.ext_iff]

/-- Each number in a class of its own. -/
def singletons (n : Nat) : DisjointSet n where
  parents := Vector.ofFn id
  ranks := Vector.replicate n 0
  rank_lt x h := absurd (by simp [get_eq]) h

theorem isRoot_singletons (x : Fin n) : (singletons n).IsRoot x := by
  simp [IsRoot, parent, singletons, get_eq]

/-! ## The measure of a walk towards the root -/

/-- How many numbers rank above `x`; no walk from `x` is longer. -/
def above (sets : DisjointSet n) (x : Fin n) : Nat :=
  (List.finRange n).countP fun y => sets.rank x < sets.rank y

private theorem countP_lt {α : Type} {p q : α → Bool} {l : List α} {a : α}
    (imp : ∀ x, p x = true → q x = true) (mem : a ∈ l) (qa : q a = true) (pa : p a = false) :
    l.countP p < l.countP q := by
  induction l with
  | nil => cases mem
  | cons b l ih =>
    have tail : l.countP p ≤ l.countP q := List.countP_mono_left fun x _ => imp x
    rw [List.countP_cons, List.countP_cons]
    rcases List.mem_cons.1 mem with rfl | mem
    · simp only [qa, pa]
      simpa using Nat.lt_succ_of_le tail
    · have rest := ih mem
      have head : (if p b = true then 1 else 0) ≤ if q b = true then 1 else 0 := by
        by_cases hp : p b = true
        · simp [hp, imp b hp]
        · simp [hp]
      omega

theorem above_lt {sets sets' : DisjointSet n} {x y : Fin n} (same : sets'.ranks = sets.ranks)
    (less : sets.rank x < sets.rank y) : sets'.above y < sets.above x := by
  have same' : sets'.rank = sets.rank := by
    funext z
    simp only [rank, same]
  unfold above
  rw [same']
  exact countP_lt (a := y) (fun z h => by simp only [decide_eq_true_eq] at h ⊢; omega)
    (List.mem_finRange y) (by simpa using less) (by simp)

/-! ## Roots -/

def root (sets : DisjointSet n) (x : Fin n) : Fin n :=
  if _ : sets.IsRoot x then x else sets.root (sets.parent x)
termination_by sets.above x
decreasing_by exact above_lt rfl (sets.rank_lt_parent ‹_›)

def halve (sets : DisjointSet n) (x : Fin n) : DisjointSet n where
  parents := sets.parents.set x (sets.parent (sets.parent x))
  ranks := sets.ranks
  rank_lt y h := by
    rw [get_set] at h ⊢
    by_cases same : x = y
    · subst same
      rw [if_pos rfl] at h ⊢
      by_cases top : sets.IsRoot x
      · exact absurd (by rw [top, top]) h
      · exact Nat.lt_of_lt_of_le (sets.rank_lt_parent top) (sets.rank_le_parent _)
    · rw [if_neg same] at h ⊢
      exact sets.rank_lt y h

theorem parent_halve (sets : DisjointSet n) (x y : Fin n) :
    (sets.halve x).parent y = if x = y then sets.parent (sets.parent x) else sets.parent y :=
  get_set ..

theorem rank_lt_halve (sets : DisjointSet n) {x : Fin n} (h : ¬ sets.IsRoot x) :
    sets.rank x < sets.rank ((sets.halve x).parent x) := by
  rw [parent_halve, if_pos rfl]
  exact Nat.lt_of_lt_of_le (sets.rank_lt_parent h) (sets.rank_le_parent _)

/-- The root of the class of `x`, with the way to it shortened. -/
def find (sets : DisjointSet n) (x : Fin n) : Fin n × DisjointSet n :=
  if _ : sets.IsRoot x then (x, sets)
  else (sets.halve x).find ((sets.halve x).parent x)
termination_by sets.above x
decreasing_by exact above_lt rfl (sets.rank_lt_halve ‹_›)

theorem IsRoot.halve {sets : DisjointSet n} {x y : Fin n} (root : sets.IsRoot y) :
    (sets.halve x).IsRoot y := by
  rw [IsRoot, parent_halve]
  split
  next same =>
    subst same
    rw [root, root]
  next => exact root

/-- Looking up one number leaves all roots in place. -/
theorem IsRoot.find {sets : DisjointSet n} {x y : Fin n} (root : sets.IsRoot y) :
    (sets.find x).2.IsRoot y := by
  fun_induction DisjointSet.find sets x with
  | case1 => exact root
  | case2 sets x _ ih => exact ih root.halve

/-- What a look-up finds is a root. -/
theorem isRoot_find (sets : DisjointSet n) (x : Fin n) :
    (sets.find x).2.IsRoot (sets.find x).1 := by
  fun_induction DisjointSet.find sets x with
  | case1 _ _ root => exact root
  | case2 sets x _ ih => exact ih

/-! ## Joining classes -/

/-- Hangs `child` below a number of greater rank. -/
def attach (sets : DisjointSet n) (child top : Fin n) (less : sets.rank child < sets.rank top) :
    DisjointSet n where
  parents := sets.parents.set child top
  ranks := sets.ranks
  rank_lt y h := by
    rw [get_set] at h ⊢
    split
    next same =>
      subst same
      exact less
    next other =>
      rw [if_neg other] at h
      exact sets.rank_lt y h

theorem parent_attach (sets : DisjointSet n) {child top : Fin n}
    (less : sets.rank child < sets.rank top) (y : Fin n) :
    (sets.attach child top less).parent y = if child = y then top else sets.parent y :=
  get_set ..

/-- Raises the rank of a root by one. -/
def promote (sets : DisjointSet n) (top : Fin n) (root : sets.IsRoot top) : DisjointSet n where
  parents := sets.parents
  ranks := sets.ranks.set top (sets.rank top + 1)
  rank_lt y h := by
    have less : sets.rank y < sets.rank (sets.parent y) := sets.rank_lt y h
    have apart : top ≠ y := fun same => h (same ▸ root)
    rw [get_set, get_set, if_neg apart]
    split
    next same =>
      rw [same]
      exact Nat.lt_succ_of_lt less
    next => exact less

theorem rank_promote (sets : DisjointSet n) {top : Fin n} (root : sets.IsRoot top) (y : Fin n) :
    (sets.promote top root).rank y = if top = y then sets.rank top + 1 else sets.rank y :=
  get_set ..

/-- Joins the classes of two different roots. Of roots of one rank the first
stays, one rank higher. -/
def join (sets : DisjointSet n) (a b : Fin n) (root : sets.IsRoot a) (apart : a ≠ b) :
    DisjointSet n :=
  if less : sets.rank a < sets.rank b then sets.attach a b less
  else if greater : sets.rank b < sets.rank a then sets.attach b a greater
  else
    (sets.promote a root).attach b a (by
      rw [rank_promote, rank_promote, if_neg apart, if_pos rfl]
      omega)

/-- Joins the classes of `a` and `b`, and tells whether they were apart. -/
def union (sets : DisjointSet n) (a b : Fin n) : Bool × DisjointSet n :=
  let first := sets.find a
  let second := first.2.find b
  if h : first.1 = second.1 then (false, second.2)
  else (true, second.2.join first.1 second.1 (isRoot_find sets a).find h)

end DisjointSet

end LoopGuard
