import LoopGuard.Proofs.Forest.Tree
import LoopGuard.Proofs.Status.LoopFree

/-!
# Statuses from any forest that passes the check

Freedom from loops needs no more of a forest than that it passes its check; where it
comes from, and whether it knows the links that are classified, does not matter. A
link without a discarding end runs over a cable of the forest, of which the forest has
just one link, and forced discards only take further links out.
-/

namespace LoopGuard

variable {links : List Link} {forest : SpanningForest} {forced : PortSet}

/-- With the statuses that any forest gives that passes its check, whichever ports are
forced to discard, the links with no discarding end are free of loops: each runs over
the cable of exactly one link of the forest, none has both ends on one switch, and
every cycle over pairwise different cables passes a discarding port. -/
theorem loop_free_of_verify (links : List Link) (forest : SpanningForest) (forced : PortSet)
    (verified : forest.verify = .ok ()) :
    let statuses := (StatusMap.resolve links forest).withForcedDiscards forced
    let forwarding := forwardingLinks links statuses
    (∀ link ∈ forwarding, (forest.links.map Link.cable).count link.cable = 1) ∧
      (∀ link ∈ forwarding, link.isSelfLoop = false) ∧
      Acyclic forwarding ∧
      ∀ (start : NodeId) (way : List Link), Walk links start way start → way ≠ [] →
        (way.map Link.cable).Nodup →
        ∃ link ∈ way, ∃ port ∈ link.endpoints, statuses[port]? = some .discarding := by
  intro statuses forwarding
  have free : NoCircuit forest.links := SpanningForest.noCircuit_links_of_verify verified
  have resolved : ∀ port, Ends links port →
      statuses[port]? = (StatusMap.resolve links forest)[port]? :=
    fun port ends => StatusMap.getElem?_resolve_withForcedDiscards.trans (if_pos ends)
  have acyclic : Acyclic forwarding := acyclic_forwardingLinks free.acyclic resolved
  refine ⟨fun link mem => ?_, fun link mem => acyclic.not_isSelfLoop mem, acyclic,
    fun start way walk some nodup => ?_⟩
  · obtain ⟨chosen, mem', same⟩ := exists_cable_of_mem_forwardingLinks resolved mem
    refine List.count_eq_one_of_mem free.nodup_cables ?_
    exact same ▸ List.mem_map_of_mem mem'
  · by_contra allOpen
    simp only [not_exists, not_and] at allOpen
    refine some (acyclic start way (walk.over fun link mem => ?_) nodup)
    exact mem_forwardingLinks.2 ⟨walk.mem link mem, allOpen link mem⟩

/-- A chain of switches `A`, `B` and `C`. -/
def chainTree : SpanningForest where
  trees :=
    [{ nodes := (((∅ : NodeSet).insert ⟨"A"⟩).insert ⟨"B"⟩).insert ⟨"C"⟩
       links := [⟨⟨"ab"⟩, .of "A" "1", .of "B" "1"⟩, ⟨⟨"bc"⟩, .of "B" "2", .of "C" "1"⟩] }]

/-- Around the chain: its first cable in both directions, a second cable that shares a
port with the chain, a loop on one switch, and a known id between other ports. -/
def tangle : List Link :=
  [⟨⟨"ab"⟩, .of "A" "1", .of "B" "1"⟩, ⟨⟨"ba"⟩, .of "B" "1", .of "A" "1"⟩,
    ⟨⟨"bc"⟩, .of "B" "2", .of "C" "1"⟩, ⟨⟨"x"⟩, .of "A" "2", .of "B" "2"⟩,
    ⟨⟨"loop"⟩, .of "C" "2", .of "C" "3"⟩, ⟨⟨"ab"⟩, .of "C" "4", .of "A" "3"⟩]

/-- In the tangle only the cable in both directions forwards. -/
theorem tangle_forwards_over_one_cable :
    let forced := ((∅ : PortSet).insert (.of "A" "1")).insert (.of "D" "1")
    let statuses := (StatusMap.resolve tangle chainTree).withForcedDiscards forced
    let forwarding := forwardingLinks tangle statuses
    chainTree.verify = .ok () ∧ forwarding.map Link.id = [⟨"ab"⟩, ⟨"ba"⟩] ∧
      (∀ link ∈ forwarding, (chainTree.links.map Link.cable).count link.cable = 1) ∧
      (∀ link ∈ forwarding, link.isSelfLoop = false) ∧
      Acyclic forwarding ∧
      ∀ (start : NodeId) (way : List Link), Walk tangle start way start → way ≠ [] →
        (way.map Link.cable).Nodup →
        ∃ link ∈ way, ∃ port ∈ link.endpoints, statuses[port]? = some .discarding := by
  intro forced statuses forwarding
  have verified : chainTree.verify = .ok () := by decide +kernel
  have both : forwarding.map Link.id = [⟨"ab"⟩, ⟨"ba"⟩] := by decide +kernel
  exact ⟨verified, both, loop_free_of_verify tangle chainTree forced verified⟩

end LoopGuard
