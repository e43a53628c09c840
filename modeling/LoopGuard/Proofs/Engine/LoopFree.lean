import LoopGuard.Proofs.Engine.Booked
import LoopGuard.Proofs.Forest.Choice
import LoopGuard.Proofs.Status.LoopFree
import LoopGuard.Store.Memory

/-!
# No loop between a commit and the next refresh

A commit writes only what differs, yet after it every port at which a link ends
is recorded as resolved: whatever it leaves out was right already. Nothing that
happens before the next refresh starts touches the links or the records, so the
agreement lasts until then, and with it the fabric's freedom from loops.
-/

namespace LoopGuard

/-- The links with both ends recorded forwarding. -/
def openLinks (links : List Link) (recorded : StatusMap) : List Link :=
  links.filter fun link => link.endpoints.all fun port => recorded[port]? = some .forwarding

/-- An open link has no discarding end. -/
theorem mem_forwardingLinks_of_mem_openLinks {links : List Link} {recorded : StatusMap}
    {link : Link} (mem : link ∈ openLinks links recorded) :
    link ∈ forwardingLinks links recorded := by
  simp only [openLinks, List.mem_filter, List.all_eq_true, decide_eq_true_eq] at mem
  refine mem_forwardingLinks.2 ⟨mem.1, fun port here discarding => ?_⟩
  rw [mem.2 port here] at discarding
  cases discarding

/-- A port at which a link ends is resolved to some status. -/
theorem LinkTable.exists_status {table : LinkTable} {port : PortRef}
    (ends : Ends table.links port) : ∃ status, table.statuses[port]? = some status := by
  rw [statuses, StatusMap.getElem?_resolve, if_pos ends]
  exact ⟨_, rfl⟩

namespace Ledger

variable {first ledger : Ledger} {log : Log}

/-- Every port at which a link ends is recorded as resolved. -/
def Agrees (ledger : Ledger) : Prop :=
  ∀ port, Ends ledger.table.links port → ledger.records[port]? = ledger.table.statuses[port]?

/-- Writing the target brings the records into agreement. -/
theorem getElem?_of_writes {records : StatusMap} {port : PortRef}
    (written : ledger.target.Writes ledger.records records) (ends : Ends ledger.table.links port) :
    records[port]? = ledger.table.statuses[port]? := by
  obtain ⟨status, resolved⟩ := LinkTable.exists_status ends
  rw [written, getElem?_target, if_pos ends, resolved, Option.some_or]

/-- Once a refresh has committed, the records agree until the next one starts. -/
theorem Path.agrees (path : Path first log ledger) (settled : log.settled = true) :
    ledger.Agrees := by
  refine path.of_settled settled fun _ written port ends => ?_
  have agreed := getElem?_of_writes written ends
  exact agreed

end Ledger

namespace World

variable {σ : Type} [StatusStore σ] [LawfulStore σ]

/-- From a commit until the next refresh starts, every port at which a link ends
is recorded with the status that the spanning forest gives it, and the links
with both ends recorded forwarding close no cycle and no loop on one switch. -/
theorem loop_free_while_settled (settings : Settings) (policy : RetryPolicy) (store : σ)
    (clock : Nat) (acts : List (Act σ)) (sole : SoleWriter acts) :
    let world := (start settings policy store clock).run acts
    let links := world.engine.graph.allLinks
    let recorded := records world.engine.store
    world.log.settled = true →
      (∀ port, Ends links port → ∃ status,
        (StatusMap.resolve links (.compute links))[port]? = some status ∧
          recorded[port]? = some status) ∧
      Acyclic (openLinks links recorded) ∧
      ∀ link ∈ openLinks links recorded, link.isSelfLoop = false := by
  intro world links recorded settled
  have booked := booked_run settings policy store clock sole
  have agrees : world.engine.ledger.Agrees := booked.path.agrees settled
  have acyclic : Acyclic (openLinks links recorded) :=
    (acyclic_forwardingLinks (SpanningForest.acyclic_links_compute links) agrees).mono
      fun link mem => mem_forwardingLinks_of_mem_openLinks mem
  refine ⟨fun port ends => ?_, acyclic, fun link mem => acyclic.not_isSelfLoop mem⟩
  obtain ⟨status, resolved⟩ := LinkTable.exists_status ends
  exact ⟨status, resolved, (agrees port ends).trans resolved⟩

/-- Two cables between two switches. -/
def twins : LinkEvent where
  created :=
    [⟨⟨"x"⟩, .of "A" "1", .of "B" "1"⟩,
      ⟨⟨"y"⟩, .of "B" "2", .of "A" "2"⟩]

/-- The twins over a store whose first commit fails: when the second one is
through, one of the two forwards. -/
theorem twins_settle_with_one_open :
    let acts : List (Act MemoryStore) := Act.whole (.event twins) ++ List.replicate 14 .work
    let world := (start ⟨0, 0, ""⟩ ⟨1, 0⟩ (MemoryStore.empty.failNext 1 (.conflict "")) 0).run acts
    let links := world.engine.graph.allLinks
    let recorded := records world.engine.store
    SoleWriter acts ∧ world.log.settled = true ∧
      (openLinks links recorded).map Link.id = [⟨"x"⟩] ∧
      (∀ port, Ends links port → ∃ status,
        (StatusMap.resolve links (.compute links))[port]? = some status ∧
          recorded[port]? = some status) ∧
      Acyclic (openLinks links recorded) ∧
      ∀ link ∈ openLinks links recorded, link.isSelfLoop = false := by
  intro acts world links recorded
  have sole : SoleWriter acts := by simp [acts, SoleWriter, Act.whole]
  have settled : world.log.settled = true := by decide +kernel
  have opened : (openLinks links recorded).map Link.id = [⟨"x"⟩] := by decide +kernel
  exact ⟨sole, settled, opened, loop_free_while_settled _ _ _ _ acts sole settled⟩

end World

end LoopGuard
