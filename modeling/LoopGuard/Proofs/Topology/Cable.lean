import LoopGuard.Topology.Link

/-!
# Cables and the ends of links

A cable forgets the direction of its links: two links run over one cable
exactly if they have the same two ports (`Cable.between_eq_iff`), and then they
join the same switches. `Ends links port` says that some of the links ends in
the port.
-/

namespace LoopGuard

/-- The cable between two ports does not depend on their order, and no two
pairs of ports have the same cable. -/
theorem Cable.between_eq_iff {a b c d : PortRef} :
    Cable.between a b = Cable.between c d ↔ (a = c ∧ b = d) ∨ (a = d ∧ b = c) := by
  have total (x y : PortRef) (h : ¬(compare x y).isLE) : (compare y x).isLE := by
    have swap : compare y x = (compare x y).swap := Std.OrientedCmp.eq_swap
    cases way : compare x y <;> simp_all
  have antisymm (x y : PortRef) (le : (compare x y).isLE) (ge : (compare y x).isLE) : x = y :=
    Std.LawfulEqCmp.eq_of_compare (Std.OrientedCmp.isLE_antisymm le ge)
  unfold Cable.between
  constructor
  · intro same
    split at same <;> split at same <;> (injection same with near far; subst near far; simp)
  · rintro (⟨rfl, rfl⟩ | ⟨rfl, rfl⟩)
    · rfl
    · by_cases le : (compare a b).isLE
      · by_cases ge : (compare b a).isLE
        · rw [antisymm a b le ge]
        · rw [if_pos le, if_neg ge]
      · rw [if_neg le, if_pos (total a b le)]

namespace Link

/-- The link runs between these two switches, in one direction or the other. -/
def Joins (link : Link) (a b : NodeId) : Prop :=
  (link.source.node = a ∧ link.destination.node = b) ∨
    (link.source.node = b ∧ link.destination.node = a)

theorem joins_ends (link : Link) : link.Joins link.source.node link.destination.node :=
  .inl ⟨rfl, rfl⟩

theorem Joins.symm {link : Link} {a b : NodeId} (h : link.Joins a b) : link.Joins b a :=
  Or.symm h

theorem cable_eq_iff {link other : Link} :
    link.cable = other.cable ↔
      (link.source = other.source ∧ link.destination = other.destination) ∨
        (link.source = other.destination ∧ link.destination = other.source) :=
  Cable.between_eq_iff

/-- Links over one cable join the same switches. -/
theorem Joins.of_cable_eq {link other : Link} {a b : NodeId} (same : link.cable = other.cable)
    (h : link.Joins a b) : other.Joins a b := by
  rcases cable_eq_iff.1 same with ⟨source, destination⟩ | ⟨source, destination⟩
  · rwa [Joins, source, destination] at h
  · rw [Joins, source, destination] at h
    rcases h with ⟨near, far⟩ | ⟨near, far⟩
    · exact .inr ⟨far, near⟩
    · exact .inl ⟨far, near⟩

end Link

/-- Some of the links ends in the port. -/
def Ends (links : List Link) (port : PortRef) : Prop :=
  ∃ link ∈ links, port ∈ link.endpoints

instance {links : List Link} {port : PortRef} : Decidable (Ends links port) :=
  inferInstanceAs (Decidable (∃ link ∈ links, port ∈ link.endpoints))

theorem ends_iff_mem_flatMap {links : List Link} {port : PortRef} :
    Ends links port ↔ port ∈ links.flatMap Link.endpoints :=
  List.mem_flatMap.symm

end LoopGuard
