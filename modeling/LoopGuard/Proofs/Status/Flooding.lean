import LoopGuard.Proofs.Forest.Greedy
import LoopGuard.Proofs.Status.LoopFree
import LoopGuard.Proofs.Status.Meaning

/-!
# What flooding still reaches

Discarding keeps flood traffic from going in circles, and must not keep it from getting
anywhere. A link of the forest is lost to it only if one of its ports also ends a cable
that the forest does not have, since discarding wins on a port
(`mem_forwardingLinks_resolve`). Where no two cables share a port this happens to none,
so all that the forest joins stays joined; and the forest joins all that the links do
(`SpanningForest.linked_links_compute_iff`).
-/

namespace LoopGuard

variable {links : List Link} {forest : SpanningForest} {link : Link} {port : PortRef}
  {a b : NodeId}

/-! ## Ports of blocked cables -/

/-- The port ends a link whose two ports are not those of any link of the forest. -/
def EndsBlocked (links : List Link) (forest : SpanningForest) (port : PortRef) : Prop :=
  ∃ link ∈ links, port ∈ link.endpoints ∧ ∀ chosen ∈ forest.links, chosen.ports ≠ link.ports

instance : Decidable (EndsBlocked links forest port) :=
  inferInstanceAs (Decidable (∃ link ∈ links, port ∈ link.endpoints ∧
    ∀ chosen ∈ forest.links, chosen.ports ≠ link.ports))

/-- Links that share a port have the same two ports. -/
def PortsUnshared (links : List Link) : Prop :=
  ∀ link ∈ links, ∀ other ∈ links, ∀ port ∈ link.endpoints, port ∈ other.endpoints →
    link.ports = other.ports

instance : Decidable (PortsUnshared links) :=
  inferInstanceAs (Decidable (∀ link ∈ links, ∀ other ∈ links, ∀ port ∈ link.endpoints,
    port ∈ other.endpoints → link.ports = other.ports))

theorem allActive_iff_not_endsBlocked :
    AllActive links forest port ↔ ¬EndsBlocked links forest port := by
  simp only [AllActive, EndsBlocked, Link.cable_eq_iff_ports_eq, not_exists, not_and, not_forall,
    ne_eq, Decidable.not_not, exists_prop]

/-! ## Forwarding links -/

/-- A link forwards if neither of its ports ends a blocked cable. -/
theorem mem_forwardingLinks_resolve :
    link ∈ forwardingLinks links (StatusMap.resolve links forest) ↔
      link ∈ links ∧ ∀ port ∈ link.endpoints, ¬EndsBlocked links forest port := by
  rw [mem_forwardingLinks]
  refine and_congr_right fun listed => forall₂_congr fun port here => ?_
  have ends : Ends links port := ⟨link, listed, here⟩
  rw [StatusMap.getElem?_resolve, if_pos ends, ← allActive_iff_not_endsBlocked]
  by_cases active : AllActive links forest port
  · simp [active]
  · simp [active]

/-- Where no two cables share a port, no port of a forest's link ends a blocked one. -/
theorem PortsUnshared.not_endsBlocked (unshared : PortsUnshared links)
    (listed : link ∈ links) (chosen : link ∈ forest.links) (here : port ∈ link.endpoints) :
    ¬EndsBlocked links forest port := by
  intro blocked
  obtain ⟨other, listed', here', apart⟩ := blocked
  exact apart link chosen (unshared link listed other listed' port here here')

namespace SpanningForest

theorem mem_of_mem_links_compute (chosen : link ∈ (compute links).links) : link ∈ links :=
  List.mem_of_find?_eq_some (mem_links_compute_iff.1 chosen).1

/-- A computed forest joins all that its links do, where their ids are distinct. -/
theorem linked_links_compute_iff (distinct : (links.map Link.id).Nodup) :
    Linked (compute links).links a b ↔ Linked links a b :=
  calc Linked (compute links).links a b
      ↔ Linked (selection links) a b := linked_congr fun _ => mem_links_compute
    _ ↔ Linked (firstLinks links) a b := linked_selection_iff
    _ ↔ Linked links a b := linked_congr fun _ =>
      LinkTable.mem_links_ofFirst.trans (isFirst_iff_mem distinct)

end SpanningForest

/-- With the forest of links with distinct ids, a link of the forest forwards exactly if
neither of its two ports ends a link between ports that no link of the forest has. So
where no port belongs to two different pairs of ports, the forwarding links join the
same switches as all links do. -/
theorem flooding_reaches_all (links : List Link) (distinct : (links.map Link.id).Nodup) :
    let forest := SpanningForest.compute links
    let forwarding := forwardingLinks links (StatusMap.resolve links forest)
    (∀ link ∈ forest.links, link ∈ forwarding ↔
        ∀ port ∈ link.endpoints, ¬EndsBlocked links forest port) ∧
      (PortsUnshared links → ∀ a b, Linked forwarding a b ↔ Linked links a b) := by
  intro forest forwarding
  refine ⟨fun link chosen => ?_, fun unshared a b => ⟨fun linked => ?_, fun linked => ?_⟩⟩
  · have listed : link ∈ links := SpanningForest.mem_of_mem_links_compute chosen
    exact mem_forwardingLinks_resolve.trans (and_iff_right listed)
  · exact linked.mono fun link mem => (mem_forwardingLinks.1 mem).1
  · have joined : Linked forest.links a b :=
      (SpanningForest.linked_links_compute_iff distinct).2 linked
    refine joined.mono fun link chosen => mem_forwardingLinks_resolve.2 ?_
    have listed : link ∈ links := SpanningForest.mem_of_mem_links_compute chosen
    exact ⟨listed, fun port here => unshared.not_endsBlocked listed chosen here⟩

/-- A triangle of three switches; discovery reports its first cable in both directions. -/
def twinnedTriangle : List Link :=
  [⟨⟨"ab"⟩, .of "A" "1", .of "B" "1"⟩, ⟨⟨"ba"⟩, .of "B" "1", .of "A" "1"⟩,
    ⟨⟨"bc"⟩, .of "B" "2", .of "C" "1"⟩, ⟨⟨"ca"⟩, .of "C" "2", .of "A" "2"⟩]

/-- The last cable of the triangle is blocked, and its two switches still reach each
other the other way around. -/
theorem twinned_triangle_is_reached :
    let forest := SpanningForest.compute twinnedTriangle
    let forwarding := forwardingLinks twinnedTriangle (StatusMap.resolve twinnedTriangle forest)
    (twinnedTriangle.map Link.id).Nodup ∧ PortsUnshared twinnedTriangle ∧
      forest.links.map Link.id = [⟨"ab"⟩, ⟨"bc"⟩] ∧
      forwarding.map Link.id = [⟨"ab"⟩, ⟨"ba"⟩, ⟨"bc"⟩] ∧
      (∀ link ∈ forest.links, link ∈ forwarding ↔
        ∀ port ∈ link.endpoints, ¬EndsBlocked twinnedTriangle forest port) ∧
      Linked forwarding ⟨"C"⟩ ⟨"A"⟩ := by
  intro forest forwarding
  have distinct : (twinnedTriangle.map Link.id).Nodup := by decide +kernel
  have unshared : PortsUnshared twinnedTriangle := by decide +kernel
  have tree : forest.links.map Link.id = [⟨"ab"⟩, ⟨"bc"⟩] := by decide +kernel
  have both : forwarding.map Link.id = [⟨"ab"⟩, ⟨"ba"⟩, ⟨"bc"⟩] := by decide +kernel
  obtain ⟨each, reached⟩ := flooding_reaches_all twinnedTriangle distinct
  refine ⟨distinct, unshared, tree, both, each, (reached unshared _ _).2 ?_⟩
  have last : (⟨⟨"ca"⟩, .of "C" "2", .of "A" "2"⟩ : Link) ∈ twinnedTriangle := by decide +kernel
  exact Linked.of_mem last

end LoopGuard
