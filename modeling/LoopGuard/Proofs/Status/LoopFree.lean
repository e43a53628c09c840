import LoopGuard.Proofs.Forest.Walk
import LoopGuard.Proofs.Status.Records

/-!
# Loop freedom of resolved statuses

A link forwards only if its cable is one of the forest's. So as long as the
forest is acyclic, flood traffic finds no cycle of forwarding links, whichever
twins, shared ports or repeated ids the links have.
-/

namespace LoopGuard

variable {links : List Link} {forest : SpanningForest} {statuses : StatusMap}

theorem mem_forwardingLinks {link : Link} :
    link ∈ forwardingLinks links statuses ↔
      link ∈ links ∧ ∀ port ∈ link.endpoints, statuses[port]? ≠ some .discarding := by
  simp [forwardingLinks, StatusMap.forwards]

/-- Where the ports have the statuses that the forest gives them, a link with no
discarding end runs over a cable of the forest. -/
theorem exists_cable_of_mem_forwardingLinks
    (resolved : ∀ port, Ends links port → statuses[port]? = (StatusMap.resolve links forest)[port]?)
    {link : Link} (mem : link ∈ forwardingLinks links statuses) :
    ∃ chosen ∈ forest.links, chosen.cable = link.cable := by
  obtain ⟨mem, forwards⟩ := mem_forwardingLinks.1 mem
  have source : link.source ∈ link.endpoints := List.mem_cons_self
  have ends : Ends links link.source := ⟨link, mem, source⟩
  have status := resolved link.source ends
  rw [StatusMap.getElem?_resolve, if_pos ends] at status
  by_cases active : AllActive links forest link.source
  · exact active link mem source
  · rw [if_neg active] at status
    exact absurd status (forwards link.source source)

/-- Links with no discarding end close no cycle. -/
theorem acyclic_forwardingLinks (acyclic : Acyclic forest.links)
    (resolved : ∀ port, Ends links port →
      statuses[port]? = (StatusMap.resolve links forest)[port]?) :
    Acyclic (forwardingLinks links statuses) :=
  acyclic.of_cables fun _ mem => exists_cable_of_mem_forwardingLinks resolved mem

end LoopGuard
