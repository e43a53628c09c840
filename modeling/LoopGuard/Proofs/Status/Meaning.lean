import LoopGuard.Proofs.Status.Records
import Mathlib.Data.Sym.Sym2

/-!
# What a resolution means

A resolution goes through the links once and lets the demands on a port meet one after
the other. What comes out depends on less than the links: on the unordered pairs of
ports between which links run, and on those of the forest. A port has a status if it is
in a pair, and forwards if the forest has every pair that it is in (`resolve_means`).
So the order of links, how often they are given and in which direction they run do not
matter.
-/

namespace LoopGuard

/-! ## Pairs of ports -/

namespace Link

/-- The two ports of the link, in no order. -/
def ports (link : Link) : Sym2 PortRef := s(link.source, link.destination)

/-- The link with its two ends exchanged. -/
def reversed (link : Link) : Link :=
  { link with source := link.destination, destination := link.source }

/-- The other link is this one, or this one in the other direction. -/
def Alike (link other : Link) : Prop := other = link ∨ other = link.reversed

variable {link other : Link} {port : PortRef}

/-- Links run over one cable exactly if they have the same two ports. -/
theorem cable_eq_iff_ports_eq : link.cable = other.cable ↔ link.ports = other.ports :=
  cable_eq_iff.trans Sym2.eq_iff.symm

theorem mem_endpoints_iff : port ∈ link.endpoints ↔ port ∈ link.ports := by
  simp [endpoints, ports]

theorem Alike.ports_eq (alike : link.Alike other) : other.ports = link.ports := by
  rcases alike with rfl | rfl
  · rfl
  · exact Sym2.eq_swap

end Link

/-- The pairs of ports between which the links run. -/
def portPairs (links : List Link) : Set (Sym2 PortRef) := {pair | ∃ link ∈ links, link.ports = pair}

variable {links other : List Link} {forest forest' : SpanningForest} {port : PortRef}

theorem portPairs_of_alike (alike : List.Forall₂ Link.Alike links other) :
    portPairs other = portPairs links := by
  have same : other.map Link.ports = links.map Link.ports := by
    induction alike with
    | nil => rfl
    | cons alike _ ih => rw [List.map_cons, List.map_cons, alike.ports_eq, ih]
  ext pair
  simp only [portPairs, Set.mem_ofPred_eq, ← List.mem_map, same]

theorem ends_iff_mem_portPairs : Ends links port ↔ ∃ pair ∈ portPairs links, port ∈ pair := by
  simp [Ends, portPairs, Link.mem_endpoints_iff]

theorem allActive_iff_ports :
    AllActive links forest port ↔ ∀ link ∈ links, port ∈ link.ports →
      ∃ chosen ∈ forest.links, chosen.ports = link.ports := by
  simp [AllActive, Link.mem_endpoints_iff, Link.cable_eq_iff_ports_eq]

theorem allActive_iff_portPairs :
    AllActive links forest port ↔
      ∀ pair ∈ portPairs links, port ∈ pair → pair ∈ portPairs forest.links := by
  simp [allActive_iff_ports, portPairs]

/-! ## Resolution -/

namespace StatusMap

/-- Only the pairs of ports count. -/
theorem resolve_congr (same : portPairs links = portPairs other)
    (same' : portPairs forest.links = portPairs forest'.links) :
    resolve links forest = resolve other forest' := by
  refine Std.ExtTreeMap.ext_getElem? fun port => ?_
  have ends : Ends links port ↔ Ends other port := by
    rw [ends_iff_mem_portPairs, ends_iff_mem_portPairs, same]
  have active : AllActive links forest port ↔ AllActive other forest' port := by
    rw [allActive_iff_portPairs, allActive_iff_portPairs, same, same']
  simp only [getElem?_resolve, ends, active]

theorem getElem?_resolve_eq_forwarding :
    (resolve links forest)[port]? = some .forwarding ↔
      Ends links port ∧ AllActive links forest port := by
  rw [getElem?_resolve]
  split
  next ends =>
    by_cases active : AllActive links forest port
    · simp [ends, active]
    · simp [active]
  next free => simp [free]

/-- Whatever the links and the forest are, the ports with a status are the ports of the
links, and a port forwards exactly if every link that ends in it has the two ports of
some link of the forest. Hence it makes no difference in which order the links are
given, how often each of them is, and which of them or of the forest's links run in the
other direction. Forced discards leave all these statuses as they are, and discard
exactly those forced ports in which no link ends. -/
theorem resolve_means (links : List Link) (forest : SpanningForest) :
    let statuses := resolve links forest
    (∀ port, port ∈ statuses ↔ Ends links port) ∧
      (∀ port, statuses[port]? = some .forwarding ↔ Ends links port ∧
        ∀ link ∈ links, port ∈ link.ports → ∃ chosen ∈ forest.links, chosen.ports = link.ports) ∧
      (∀ other, (∀ link, link ∈ other ↔ link ∈ links) → resolve other forest = statuses) ∧
      (∀ other forest', List.Forall₂ Link.Alike links other →
        List.Forall₂ Link.Alike forest.links forest'.links → resolve other forest' = statuses) ∧
      ∀ (forced : PortSet) (port : PortRef), (statuses.withForcedDiscards forced)[port]? =
        if Ends links port then statuses[port]?
        else if port ∈ forced then some .discarding else none := by
  intro statuses
  refine ⟨fun port => mem_resolve, fun port => ?_, fun other members => ?_,
    fun other forest' alike alike' => ?_,
    fun forced port => getElem?_resolve_withForcedDiscards⟩
  · rw [← allActive_iff_ports]
    exact getElem?_resolve_eq_forwarding
  · exact resolve_congr (by simp [portPairs, members]) rfl
  · exact resolve_congr (portPairs_of_alike alike) (portPairs_of_alike alike')

/-- Two cables share a port, of which the forest has one. -/
example :
    let links : List Link :=
      [⟨⟨"a"⟩, .of "A" "1", .of "B" "1"⟩, ⟨⟨"b"⟩, .of "B" "2", .of "A" "1"⟩]
    (resolve links (.compute links)).toList =
      [(.of "A" "1", .discarding), (.of "B" "1", .forwarding), (.of "B" "2", .discarding)] := by
  decide +kernel

end StatusMap

end LoopGuard
