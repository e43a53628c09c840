import LoopGuard.Proofs.Topology.Cable
import Mathlib.Logic.Relation

/-!
# Walks over links

`Linked links a b` says that the links lead from one switch to another.
`Walk links a way b` also names the links that are passed, each in either
direction. Links are `Acyclic` when no walk over pairwise different cables
comes back to where it started. Since a walk may pass any link of a cable, this
speaks about cables: twins of one cable close no cycle, while a self-loop or a
second cable between two switches does.

`Walk.linked_around` is why a forest can grow: a cycle over a new link leads
around it, so a link between switches that were not linked closes none.
-/

namespace LoopGuard

/-- One of the links runs between the two switches. -/
def Adjacent (links : List Link) (a b : NodeId) : Prop := ∃ link ∈ links, link.Joins a b

/-- The links lead from one switch to the other. -/
def Linked (links : List Link) : NodeId → NodeId → Prop := Relation.ReflTransGen (Adjacent links)

/-- A way from one switch to another over some of the links. -/
inductive Walk (links : List Link) : NodeId → List Link → NodeId → Prop
  | nil (a : NodeId) : Walk links a [] a
  | cons {a b c : NodeId} {link : Link} {way : List Link} :
    link ∈ links → link.Joins a b → Walk links b way c → Walk links a (link :: way) c

/-- No walk over pairwise different cables comes back to its start. -/
def Acyclic (links : List Link) : Prop :=
  ∀ (start : NodeId) (way : List Link),
    Walk links start way start → (way.map Link.cable).Nodup → way = []

variable {links more : List Link} {a b c : NodeId} {link : Link} {way : List Link}

/-! ## Linked switches -/

theorem Adjacent.symm (h : Adjacent links a b) : Adjacent links b a := by
  obtain ⟨link, mem, joins⟩ := h
  exact ⟨link, mem, joins.symm⟩

theorem Linked.symm (h : Linked links a b) : Linked links b a := by
  induction h with
  | refl => exact .refl
  | tail _ step ih => exact .head step.symm ih

theorem Linked.mono (sub : ∀ link ∈ links, link ∈ more) (h : Linked links a b) :
    Linked more a b := by
  induction h with
  | refl => exact .refl
  | tail _ step ih =>
    obtain ⟨link, mem, joins⟩ := step
    exact ih.tail ⟨link, sub link mem, joins⟩

/-- Which links there are matters, not their order or number. -/
theorem linked_congr (same : ∀ link, link ∈ links ↔ link ∈ more) :
    Linked links a b ↔ Linked more a b :=
  ⟨fun linked => linked.mono fun link => (same link).1,
    fun linked => linked.mono fun link => (same link).2⟩

/-- Switches that a region's links lead to are linked by these alone. -/
theorem Linked.within {inside : NodeId → Prop}
    (closed : ∀ link ∈ links, inside link.source.node ↔ inside link.destination.node)
    (sub : ∀ link ∈ links, inside link.source.node → link ∈ more) (here : inside a)
    (h : Linked links a b) : inside b ∧ Linked more a b := by
  induction h with
  | refl => exact ⟨here, .refl⟩
  | tail _ step ih =>
    obtain ⟨near, reached⟩ := ih
    obtain ⟨link, mem, joins⟩ := step
    rcases joins with ⟨rfl, rfl⟩ | ⟨rfl, rfl⟩
    · exact ⟨(closed link mem).1 near, reached.tail ⟨link, sub link mem near, link.joins_ends⟩⟩
    · have source := (closed link mem).2 near
      exact ⟨source, reached.tail ⟨link, sub link mem source, link.joins_ends.symm⟩⟩

theorem Linked.of_mem (mem : link ∈ links) :
    Linked links link.source.node link.destination.node :=
  .single ⟨link, mem, link.joins_ends⟩

/-- What one more link adds: it is passed once or not at all. -/
theorem linked_cons_iff :
    Linked (link :: links) a b ↔ Linked links a b ∨
      (Linked links a link.source.node ∧ Linked links link.destination.node b) ∨
        (Linked links a link.destination.node ∧ Linked links link.source.node b) := by
  have old {x y : NodeId} (h : Linked links x y) : Linked (link :: links) x y :=
    h.mono fun _ => List.mem_cons_of_mem _
  have new : Linked (link :: links) link.source.node link.destination.node :=
    .of_mem List.mem_cons_self
  constructor
  · intro h
    induction h with
    | refl => exact .inl .refl
    | tail _ step ih =>
      obtain ⟨last, mem, joins⟩ := step
      rcases List.mem_cons.1 mem with rfl | mem
      · rcases joins with ⟨rfl, rfl⟩ | ⟨rfl, rfl⟩
        · rcases ih with direct | ⟨first, _⟩ | ⟨first, _⟩
          · exact .inr (.inl ⟨direct, .refl⟩)
          · exact .inr (.inl ⟨first, .refl⟩)
          · exact .inl first
        · rcases ih with direct | ⟨first, _⟩ | ⟨first, _⟩
          · exact .inr (.inr ⟨direct, .refl⟩)
          · exact .inl first
          · exact .inr (.inr ⟨first, .refl⟩)
      · have on : Adjacent links _ _ := ⟨last, mem, joins⟩
        rcases ih with direct | ⟨first, second⟩ | ⟨first, second⟩
        · exact .inl (direct.tail on)
        · exact .inr (.inl ⟨first, second.tail on⟩)
        · exact .inr (.inr ⟨first, second.tail on⟩)
  · rintro (direct | ⟨first, second⟩ | ⟨first, second⟩)
    · exact old direct
    · exact (old first).trans (new.trans (old second))
    · exact (old first).trans (new.symm.trans (old second))

/-- A link between switches that are linked already leads nowhere new. -/
theorem linked_cons_iff_of_linked (joined : Linked links link.source.node link.destination.node) :
    Linked (link :: links) a b ↔ Linked links a b := by
  rw [linked_cons_iff]
  refine ⟨?_, .inl⟩
  rintro (direct | ⟨first, second⟩ | ⟨first, second⟩)
  · exact direct
  · exact first.trans (joined.trans second)
  · exact first.trans (joined.symm.trans second)

/-- Where it takes a link to join two switches, a link between these joins what that
link does. -/
theorem Linked.exchange {other : Link}
    (reached : Linked (link :: links) other.source.node other.destination.node)
    (apart : ¬Linked links other.source.node other.destination.node) :
    Linked (other :: links) link.source.node link.destination.node := by
  rcases linked_cons_iff.1 reached with direct | ⟨first, second⟩ | ⟨first, second⟩
  · exact absurd direct apart
  · exact linked_cons_iff.2 (.inr (.inl ⟨first.symm, second.symm⟩))
  · exact linked_cons_iff.2 (.inr (.inr ⟨second, first⟩))

/-! ## Walks -/

theorem Walk.linked (walk : Walk links a way b) : Linked links a b := by
  induction walk with
  | nil => exact .refl
  | cons mem joins _ ih => exact .head ⟨_, mem, joins⟩ ih

theorem Walk.mem (walk : Walk links a way b) : ∀ link ∈ way, link ∈ links := by
  induction walk with
  | nil => simp
  | cons mem _ _ ih => simpa [mem] using ih

/-- A walk may be taken over any links that include those it passes. -/
theorem Walk.over (walk : Walk links a way b) (sub : ∀ link ∈ way, link ∈ more) :
    Walk more a way b := by
  induction walk with
  | nil => exact .nil _
  | cons _ joins _ ih =>
    rw [List.forall_mem_cons] at sub
    exact .cons sub.1 joins (ih sub.2)

theorem Walk.of_append {first second : List Link} (walk : Walk links a (first ++ second) c) :
    ∃ b, Walk links a first b ∧ Walk links b second c := by
  induction first generalizing a with
  | nil => exact ⟨a, .nil a, walk⟩
  | cons link first ih =>
    cases walk with
    | cons mem joins rest =>
      obtain ⟨b, left, right⟩ := ih rest
      exact ⟨b, .cons mem joins left, right⟩

theorem Walk.append {first second : List Link} (walk : Walk links a first b)
    (onward : Walk links b second c) : Walk links a (first ++ second) c := by
  induction walk with
  | nil => exact onward
  | cons mem joins _ ih => exact .cons mem joins (ih onward)

theorem Walk.mono (walk : Walk links a way b) (sub : ∀ link ∈ links, link ∈ more) :
    Walk more a way b :=
  walk.over fun link passed => sub link (walk.mem link passed)

/-- A walk leads to both ends of every link that it passes. -/
theorem Walk.linked_of_mem (walk : Walk links a way b) (passed : link ∈ way) :
    Linked links a link.source.node ∧ Linked links link.source.node b := by
  obtain ⟨first, second, rfl⟩ := List.append_of_mem passed
  obtain ⟨near, before, onward⟩ := walk.of_append
  cases onward with
  | cons mem joins after =>
    rcases joins with ⟨rfl, rfl⟩ | ⟨rfl, rfl⟩
    · exact ⟨before.linked, (Linked.of_mem mem).trans after.linked⟩
    · exact ⟨before.linked.trans (Linked.of_mem mem).symm, after.linked⟩

/-- A closed walk that passes the newest link just once leads around it. -/
theorem Walk.linked_around {first second : List Link}
    (walk : Walk (link :: links) a (first ++ link :: second) a) (once : link ∉ first ++ second) :
    Linked links link.source.node link.destination.node := by
  obtain ⟨near, before, onward⟩ := walk.of_append
  cases onward with
  | @cons _ far _ _ _ _ joins after =>
    have stays {part : List Link} {x y : NodeId} (walk : Walk (link :: links) x part y)
        (sub : ∀ other ∈ part, other ∈ first ++ second) : Linked links x y := by
      refine (walk.over fun other mem => ?_).linked
      refine (List.mem_cons.1 (walk.mem other mem)).resolve_left ?_
      rintro rfl
      exact once (sub _ mem)
    have around : Linked links far near :=
      (stays after fun _ => List.mem_append_right first).trans
        (stays before fun _ => List.mem_append_left second)
    rcases joins with ⟨rfl, rfl⟩ | ⟨rfl, rfl⟩
    · exact around.symm
    · exact around

/-- Where no link leads out of a region, a walk stays inside or outside of it. -/
theorem Walk.stays {inside : NodeId → Prop}
    (closed : ∀ link ∈ links, inside link.source.node ↔ inside link.destination.node)
    (walk : Walk links a way b) : ∀ link ∈ way, inside link.source.node ↔ inside a := by
  induction walk with
  | nil => simp
  | @cons a next _ first rest mem joins _ ih =>
    have across : (inside first.source.node ↔ inside a) ∧ (inside next ↔ inside a) := by
      rcases joins with ⟨rfl, rfl⟩ | ⟨rfl, rfl⟩
      · exact ⟨Iff.rfl, (closed first mem).symm⟩
      · exact ⟨closed first mem, closed first mem⟩
    rw [List.forall_mem_cons]
    exact ⟨across.1, fun link passed => (ih link passed).trans across.2⟩

/-- The same way over other links of the same cables. -/
theorem Walk.exists_cable (walk : Walk links a way b)
    (cables : ∀ link ∈ links, ∃ other ∈ more, other.cable = link.cable) :
    ∃ detour, Walk more a detour b ∧ detour.map Link.cable = way.map Link.cable := by
  induction walk with
  | nil a => exact ⟨[], .nil a, rfl⟩
  | cons mem joins _ ih =>
    obtain ⟨other, mem', same⟩ := cables _ mem
    obtain ⟨detour, walk, map⟩ := ih
    exact ⟨other :: detour, .cons mem' (joins.of_cable_eq same.symm) walk, by simp [same, map]⟩

/-! ## Cycles -/

/-- Links whose cables all have a link in an acyclic list are acyclic. -/
theorem Acyclic.of_cables (acyclic : Acyclic more)
    (cables : ∀ link ∈ links, ∃ other ∈ more, other.cable = link.cable) : Acyclic links := by
  intro start way walk nodup
  obtain ⟨detour, walk', same⟩ := walk.exists_cable cables
  have empty := acyclic start detour walk' (same ▸ nodup)
  simpa [empty] using same.symm

theorem Acyclic.mono (acyclic : Acyclic more) (sub : ∀ link ∈ links, link ∈ more) :
    Acyclic links :=
  acyclic.of_cables fun link mem => ⟨link, sub link mem, rfl⟩

theorem Acyclic.not_isSelfLoop (acyclic : Acyclic links) (mem : link ∈ links) :
    link.isSelfLoop = false := by
  have apart : link.source.node ≠ link.destination.node := fun same => by
    have joins : link.Joins link.source.node link.source.node := .inl ⟨rfl, same.symm⟩
    have empty := acyclic _ [link] (.cons mem joins (.nil _)) (by simp)
    exact List.cons_ne_nil _ _ empty
  simpa [Link.isSelfLoop] using apart

end LoopGuard
