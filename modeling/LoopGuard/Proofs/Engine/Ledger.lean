import LoopGuard.Proofs.Engine.World
import LoopGuard.Proofs.Store.Lawful
import LoopGuard.Proofs.Topology.Replay

/-!
# The ledger of a run

A `Ledger` is what a run is about: the links, the ports that are forced to
discard, whether the records were looked through, whether a refresh is in
progress, and the records. `Ledger.Entry` says how each note of the log changes
it, without clock, slot, attempts or kept forest. What a commit brings about
lasts until the next refresh starts (`Ledger.Path.of_settled`).
-/

namespace LoopGuard

/-- The status of each port at which a link of the table ends. -/
def LinkTable.statuses (table : LinkTable) : StatusMap :=
  .resolve table.links (.compute table.links)

/-- What a run is about. -/
structure Ledger where
  table : LinkTable := ∅
  forced : PortSet := ∅
  reconciled : Bool := false
  refreshing : Bool := false
  records : StatusMap

namespace Ledger

/-- The statuses that the links and the forced ports ask for. -/
def target (ledger : Ledger) : StatusMap := ledger.table.statuses.withForcedDiscards ledger.forced

/-- The port is recorded forwarding although no link ends in it. -/
def Stale (ledger : Ledger) (port : PortRef) : Prop :=
  ledger.records[port]? = some .forwarding ∧ ¬Ends ledger.table.links port

/-- What a note says about the ledger. -/
inductive Entry : Ledger → Note → Ledger → Prop
  | accepted {ledger : Ledger} (input : Input) : Entry ledger (.accepted input) ledger
  | took {ledger : Ledger} (resting : ledger.refreshing = false) :
    Entry ledger .took { ledger with refreshing := true }
  | made {ledger : Ledger} (change : LinkChange) (refreshing : ledger.refreshing = true) :
    Entry ledger (.made change)
      { ledger with
        table := change.file ledger.table
        forced := ledger.forced.insertMany change.releasedPorts }
  | reviewed {ledger : Ledger} {forced : PortSet} (refreshing : ledger.refreshing = true)
    (first : ledger.reconciled = false)
    (stale : ∀ port, port ∈ forced ↔ port ∈ ledger.forced ∨ ledger.Stale port) :
    Entry ledger (.reviewed ledger.records ledger.table.links)
      { ledger with forced, reconciled := true }
  | committed {ledger : Ledger} {records : StatusMap} (refreshing : ledger.refreshing = true)
    (reconciled : ledger.reconciled = true)
    (written : ledger.target.Writes ledger.records records) :
    Entry ledger .committed { ledger with forced := ∅, refreshing := false, records }
  | failed {ledger : Ledger} (refreshing : ledger.refreshing = true) :
    Entry ledger .failed { ledger with refreshing := false }

/-- The log leads from one ledger to another. An attempt to commit that is
reported failed may have written, of which no note is taken. -/
inductive Path (first : Ledger) : Log → Ledger → Prop
  | nil : Path first [] first
  | concat {log : Log} {note : Note} {ledger next : Ledger} :
    Path first log ledger → Entry ledger note next → Path first (log ++ [note]) next
  | unnoticed {log : Log} {ledger : Ledger} {records : StatusMap} :
    Path first log ledger → ledger.refreshing = true → ledger.reconciled = true →
    ledger.target.Writes ledger.records records → Path first log { ledger with records }

variable {first ledger next : Ledger} {log notes : Log} {note : Note} {port : PortRef}

theorem Path.append (start : Path first log ledger) (rest : Path ledger notes next) :
    Path first (log ++ notes) next := by
  induction rest with
  | nil => simpa using start
  | concat _ entry ih => exact List.append_assoc .. ▸ ih.concat entry
  | unnoticed _ refreshing reconciled written ih => exact ih.unnoticed refreshing reconciled written

theorem Path.of_eq (same : first = next) : Path first [] next :=
  same ▸ .nil

theorem Path.single (entry : Entry ledger note next) : Path ledger [note] next :=
  Path.nil.concat entry

/-- A change forces the ports that it releases. -/
theorem mem_forced_iff_of_made {forced : PortSet} {change : LinkChange} :
    port ∈ forced.insertMany change.releasedPorts ↔
      port ∈ forced ∨ port ∈ change.releasedPorts := by
  rw [Std.ExtTreeSet.mem_insertMany_list, List.contains_iff_mem]

/-- The target has the ports at which links end, and the forced ports. -/
theorem getElem?_target :
    ledger.target[port]? =
      if Ends ledger.table.links port then ledger.table.statuses[port]?
      else if port ∈ ledger.forced then some .discarding else none :=
  StatusMap.getElem?_resolve_withForcedDiscards

/-- Of the ports at which no link ends, writing the target discards the forced ones
and leaves the others as they are. -/
theorem getElem?_of_writes_of_not_ends {records : StatusMap}
    (written : ledger.target.Writes ledger.records records)
    (apart : ¬Ends ledger.table.links port) :
    records[port]? = if port ∈ ledger.forced then some .discarding else ledger.records[port]? := by
  rw [written, getElem?_target, if_neg apart]
  by_cases forced : port ∈ ledger.forced
  · rw [if_pos forced, if_pos forced, Option.some_or]
  · rw [if_neg forced, if_neg forced, Option.none_or]

/-- The table is what was made of it. -/
theorem Path.table_eq (path : Path first log ledger) :
    ledger.table = first.table.replay log.made := by
  induction path with
  | nil => rfl
  | concat _ entry ih => cases entry <;> simp [ih, LinkTable.replay]
  | unnoticed _ _ _ _ ih => exact ih

/-- A refresh in progress has not committed. -/
theorem Path.unsettled (path : Path first log ledger) (refreshing : ledger.refreshing = true) :
    log.settled = false := by
  induction path with
  | nil => rfl
  | unnoticed _ _ _ _ ih => exact ih refreshing
  | concat _ entry ih =>
    cases entry with
    | accepted => simpa using ih refreshing
    | took => simp
    | made _ before | reviewed before => simpa using ih before
    | committed | failed => cases refreshing

/-- What every commit brings about lasts until the next refresh starts. -/
theorem Path.of_settled {motive : Ledger → Prop} (path : Path first log ledger)
    (settled : log.settled = true)
    (commit : ∀ {ledger : Ledger} {records : StatusMap}, ledger.reconciled = true →
      ledger.target.Writes ledger.records records →
      motive { ledger with forced := ∅, refreshing := false, records }) :
    motive ledger := by
  induction path with
  | nil => cases settled
  | unnoticed path refreshing => simp [path.unsettled refreshing] at settled
  | concat path entry ih =>
    cases entry with
    | accepted => exact ih (by simpa using settled)
    | committed _ reconciled written => exact commit reconciled written
    | took => simp at settled
    | made _ refreshing | reviewed refreshing | failed refreshing =>
      simp [path.unsettled refreshing] at settled

/-- A commit finds the records looked through, and settles what was forced. -/
theorem Path.rested (path : Path first log ledger) (settled : log.settled = true) :
    ledger.reconciled = true ∧ ledger.forced = ∅ :=
  path.of_settled (motive := fun ledger => ledger.reconciled = true ∧ ledger.forced = ∅) settled
    fun reconciled _ => ⟨reconciled, rfl⟩

end Ledger

end LoopGuard
