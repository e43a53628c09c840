import LoopGuard.Proofs.Engine.Booked
import LoopGuard.Store.Memory

/-!
# Stale forwarding records

A port is stale when it is recorded forwarding although no link ends in it. A
commit discards a stale port exactly if something since the last commit owes it
the discard: a removal that names the port, or the one look through the records.
Removals name the ports that they report, while links go away by id; so a
removal that reports other ports than those of the link it takes out may leave a
stale port behind. When no removal does, none is left.
-/

namespace LoopGuard

/-- The note is a reason to discard the port. -/
def Note.Owes (port : PortRef) : Note → Prop
  | .made change => port ∈ change.releasedPorts
  | .reviewed recorded links => recorded[port]? = some .forwarding ∧ ¬Ends links port
  | _ => False

/-- Something that happened is a reason to discard the port. -/
def Log.Owes (log : Log) (port : PortRef) : Prop := ∃ note ∈ log, note.Owes port

theorem Log.owes_concat {log : Log} {note : Note} {port : PortRef} :
    Log.Owes (log ++ [note]) port ↔ log.Owes port ∨ note.Owes port := by
  simp [Owes, or_and_right, exists_or]

namespace Ledger

variable {first ledger next : Ledger} {log : Log} {port : PortRef}

/-- The forced ports are those that something since the last commit owes a
discard. -/
theorem Path.mem_forced_iff (path : Path first log ledger) (fresh : first.forced = ∅) :
    port ∈ ledger.forced ↔ Log.Owes log.sinceCommit port := by
  induction path with
  | nil => simp [fresh, Log.sinceCommit, Log.Owes]
  | unnoticed _ _ _ _ ih => exact ih
  | concat _ entry ih =>
    cases entry with
    | committed => simp [Log.Owes]
    | made change _ =>
      rw [Log.sinceCommit_concat, Log.owes_concat, ← ih, mem_forced_iff_of_made]
      rfl
    | reviewed _ _ stale =>
      rw [Log.sinceCommit_concat, Log.owes_concat, ← ih]
      exact stale port
    | accepted | took | failed =>
      rw [Log.sinceCommit_concat, Log.owes_concat, ← ih]
      exact (iff_of_eq (or_false _)).symm

/-- Writing the target discards the forced stale ports and makes no port stale. -/
theorem stale_of_writes_iff {records : StatusMap}
    (written : ledger.target.Writes ledger.records records) :
    { ledger with records }.Stale port ↔ ledger.Stale port ∧ port ∉ ledger.forced := by
  by_cases ends : Ends ledger.table.links port
  · exact ⟨fun stale => absurd ends stale.2, fun stale => absurd ends stale.1.2⟩
  · simp only [Stale, getElem?_of_writes_of_not_ends written ends]
    by_cases forced : port ∈ ledger.forced <;> simp [forced]

/-- Once the records are looked through, a port that is recorded forwarding has
a link or is forced, provided that removals name the ports of what they take
out. -/
theorem Path.forced_of_stale (path : Path first log ledger) (unread : first.reconciled = false)
    (named : Reports Link.NamesEnds first.table log.made) :
    ledger.reconciled = true → ledger.Stale port → port ∈ ledger.forced := by
  induction path with
  | nil => simp [unread]
  | unnoticed _ _ _ written ih =>
    intro reconciled stale
    exact ih named reconciled ((stale_of_writes_iff written).1 stale).1
  | @concat log _ ledger _ path entry ih =>
    cases entry with
    | accepted | took | failed =>
      exact ih (by simpa using named)
    | reviewed _ _ found =>
      intro _ stale
      exact (found port).2 (.inr stale)
    | committed _ reconciled written =>
      intro _ stale
      have before := (stale_of_writes_iff written).1 stale
      exact absurd (ih (by simpa using named) reconciled before.1) before.2
    | made change _ =>
      intro reconciled stale
      simp only [Log.made_append, Log.made_singleton, reports_append, ← path.table_eq] at named
      refine mem_forced_iff_of_made.2 ?_
      -- the port was stale before, or it has just lost its last link to this change
      by_cases before : Ends ledger.table.links port
      · rcases change.ends_file_or_mem named.2 before with kept | released
        · exact absurd kept stale.2
        · exact .inr released
      · exact .inl (ih named.1 reconciled ⟨stale.1, before⟩)

end Ledger

namespace Engine

variable {σ : Type} [StatusStore σ] [LawfulStore σ] {engine next : Engine σ} {log notes : Log}
  {port : PortRef}

/-- Looking through the records makes no port stale and releases none. -/
theorem Reading.stale_iff {read : Engine σ} (reading : Reading engine notes read) :
    (read.ledger.Stale port ↔ engine.ledger.Stale port) ∧
      (port ∈ engine.forced → port ∈ read.forced) := by
  cases reading with
  | done => exact ⟨Iff.rfl, id⟩
  | first =>
    refine ⟨?_, fun forced => (mem_forced_reconcile _).2 (.inl forced)⟩
    simp only [Ledger.Stale, ledger, reconcile, LawfulStore.records_recorded]

/-- A step that commits discards the forced stale ports and makes no port stale. -/
theorem Move.stale_iff (move : Move engine notes next) (faithful : engine.Faithful)
    (unsettled : log.settled = false) (settled : Log.settled (log ++ notes) = true) :
    next.ledger.Stale port ↔ engine.ledger.Stale port ∧ port ∉ engine.forced := by
  cases move with
  | @commit desired number due outcome committing elapsed ok =>
    have written := LawfulStore.writes_of_ok ok
    rw [(faithful.proposed desired (by simp [Engine.proposal, committing])).1] at written ⊢
    exact Ledger.stale_of_writes_iff written
  | @settle read notes changing reading nothing =>
    have sound : read.graph.Sound := reading.graph_eq ▸ faithful.sound
    have target : read.ledger.target = ∅ := (desired_eq_target sound).symm.trans nothing
    have after : (read.remember.succeed 0).ledger.Stale port ↔ read.ledger.Stale port := by
      have kept : read.remember.ledger = read.ledger := ledger_remember
      rw [← kept]
      rfl
    rw [after, reading.stale_iff.1]
    refine ⟨fun stale => ⟨stale, fun forced => ?_⟩, And.left⟩
    -- a forced port without a link would be something to commit
    have forced' : port ∈ read.ledger.forced := reading.stale_iff.2 forced
    have owed : read.ledger.target[port]? = some .discarding := by
      rw [Ledger.getElem?_target, if_neg (reading.stale_iff.1.2 stale).2, if_pos forced']
    simp [target] at owed
  | propose _ reading =>
    cases reading <;> simp [unsettled] at settled
  | take | change | unread | giveUp => simp [unsettled] at settled
  | _ =>
    rw [List.append_nil, unsettled] at settled
    cases settled

end Engine

namespace World

variable {σ : Type} [StatusStore σ] [LawfulStore σ]

/-- The port is recorded forwarding although no link ends in it. -/
def Stale (world : World σ) (port : PortRef) : Prop :=
  (records world.engine.store)[port]? = some .forwarding ∧ ¬Ends world.engine.graph.allLinks port

/-- A commit leaves a port stale exactly if it was stale before and nothing
since the last commit owes it a discard: no removal names it, and no look
through the records found it. So as long as every removal names both ports of
each link that it takes out, no commit leaves a port stale. -/
theorem stale_after_commit_iff (settings : Settings) (policy : RetryPolicy) (store : σ)
    (clock : Nat) (acts : List (Act σ)) (sole : SoleWriter acts) :
    let world := (start settings policy store clock).run acts
    let after := world.step .work
    world.log.settled = false → after.log.settled = true →
      (∀ port, after.Stale port ↔ world.Stale port ∧ ¬Log.Owes world.log.sinceCommit port) ∧
      (Reports Link.NamesEnds ∅ after.log.made → ∀ port, ¬after.Stale port) := by
  intro world after unsettled settled
  have booked : world.Booked { records := records store } :=
    booked_run settings policy store clock sole
  have booked' : after.Booked { records := records store } :=
    Turn.booked (.work world.engine.move_work) booked
  constructor
  · intro port
    rw [← booked.path.mem_forced_iff rfl]
    exact world.engine.move_work.stale_iff booked.faithful unsettled settled
  · intro named port stale
    obtain ⟨reconciled, nothing⟩ := booked'.path.rested settled
    have forced := booked'.path.forced_of_stale rfl named reconciled stale
    rw [nothing] at forced
    exact Std.ExtTreeSet.not_mem_empty forced

/-- The chain comes up and is cut; one more step commits the cut. -/
def cutChain (port : String) : List (Act MemoryStore) :=
  Act.whole (.event chain) ++ List.replicate 12 .work ++ Act.whole (.event (cutAt port)) ++
    List.replicate 6 .work

/-- A cut that is reported as it is leaves no port stale. -/
theorem chain_cut_leaves_no_stale_port :
    let world := (start ⟨0, 0, ""⟩ ⟨1, 0⟩ MemoryStore.empty 0).run (cutChain "1")
    let after := world.step .work
    SoleWriter (cutChain "1") ∧ world.log.settled = false ∧ after.log.settled = true ∧
      Reports Link.NamesEnds ∅ after.log.made ∧ world.Stale (.of "B" "1") ∧
      (∀ port, after.Stale port ↔ world.Stale port ∧ ¬Log.Owes world.log.sinceCommit port) ∧
      ∀ port, ¬after.Stale port := by
  intro world after
  have sole : SoleWriter (cutChain "1") := by simp [SoleWriter, cutChain, Act.whole]
  have unsettled : world.log.settled = false := by decide +kernel
  have settled : after.log.settled = true := by decide +kernel
  have named : Reports Link.NamesEnds ∅ after.log.made := by decide +kernel
  have stale : world.Stale (.of "B" "1") := ⟨by decide +kernel, by decide +kernel⟩
  obtain ⟨condition, none⟩ := stale_after_commit_iff _ _ _ _ _ sole unsettled settled
  exact ⟨sole, unsettled, settled, named, stale, condition, none named⟩

/-- A cut that is reported at the wrong port of `B` is committed, and the right
one stays recorded forwarding although no link ends in it. -/
theorem misreported_cut_leaves_stale_port :
    let world := (start ⟨0, 0, ""⟩ ⟨1, 0⟩ MemoryStore.empty 0).run (cutChain "2")
    let after := world.step .work
    SoleWriter (cutChain "2") ∧ world.log.settled = false ∧ after.log.settled = true ∧
      after.Stale (.of "B" "1") := by
  intro world after
  have sole : SoleWriter (cutChain "2") := by simp [SoleWriter, cutChain, Act.whole]
  have unsettled : world.log.settled = false := by decide +kernel
  have settled : after.log.settled = true := by decide +kernel
  have stale : after.Stale (.of "B" "1") := ⟨by decide +kernel, by decide +kernel⟩
  exact ⟨sole, unsettled, settled, stale⟩

end World

end LoopGuard
