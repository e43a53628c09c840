import LoopGuard.Proofs.Engine.Survival

/-!
# What a run leaves alone

Each refresh writes what the links ask for, what removals owe, and once what the
look through the records has found. So the only ports that a run writes to are those
that accepted events name, and those that were recorded forwarding at first
(`Ledger.Spared`). The records are looked through once, and before anything is
written (`Ledger.Path.readings_eq`). No record goes away
(`Ledger.Path.isSome_records`).
-/

namespace LoopGuard

/-- Some event among the inputs names the port as an end of a link of the fabric. -/
def Input.Concerns (marker : String) (inputs : List Input) (port : PortRef) : Prop :=
  ∃ event, .event event ∈ inputs ∧ ∃ link ∈ event.created ++ event.removed,
    link.isHostLink marker = false ∧ port ∈ link.endpoints

theorem LinkEvent.eq_of_mem_changes {event : LinkEvent} {change : LinkChange}
    (asked : change ∈ event.changes) :
    change = .remove event.removed ∨ change = .add event.created := by
  simp only [changes, List.mem_append, List.mem_ite_nil_left, List.mem_singleton] at asked
  exact asked.imp And.right And.right

theorem Input.Concerns.of_change {marker : String} {inputs : List Input} {change : LinkChange}
    {port : PortRef} (asked : change ∈ allChanges marker inputs) (ends : Ends change.links port) :
    Concerns marker inputs port := by
  obtain ⟨input, inside, asked⟩ := List.mem_flatMap.1 asked
  obtain ⟨link, mem, here⟩ := ends
  cases input with
  | refresh => cases asked
  | event event =>
    refine ⟨event, inside, link, ?_⟩
    rcases LinkEvent.eq_of_mem_changes asked with rfl | rfl
    · obtain ⟨removed, fabric⟩ := List.mem_filter.1 mem
      exact ⟨List.mem_append_right _ removed, by simpa using fabric, here⟩
    · obtain ⟨created, fabric⟩ := List.mem_filter.1 mem
      exact ⟨List.mem_append_left _ created, by simpa using fabric, here⟩

namespace Ledger

variable {first ledger : Ledger} {log : Log} {port : PortRef}

/-- The records are looked through once, and before that nothing is written. -/
theorem Path.readings_eq (path : Path first log ledger) (unread : first.reconciled = false) :
    (ledger.reconciled = true ∧ log.readings = [first.records]) ∨
      (ledger.reconciled = false ∧ log.readings = [] ∧ log.commits = 0 ∧
        ledger.records = first.records) := by
  induction path with
  | nil => exact .inr ⟨unread, rfl, rfl, rfl⟩
  | unnoticed _ _ reconciled _ ih =>
    exact .inl ⟨reconciled, (ih.resolve_right (by simp [reconciled])).2⟩
  | concat _ entry ih =>
    cases entry with
    | reviewed _ before _ =>
      obtain ⟨_, none, _, same⟩ := ih.resolve_left (by simp [before])
      exact .inl ⟨rfl, by simp [none, same]⟩
    | committed _ reconciled _ =>
      exact .inl ⟨reconciled, by simp [(ih.resolve_right (by simp [reconciled])).2]⟩
    | accepted | took | made | failed => simpa using ih

/-- A port that has a record keeps one. -/
theorem Path.isSome_records (path : Path first log ledger) (some : first.records[port]?.isSome) :
    ledger.records[port]?.isSome := by
  induction path with
  | nil => exact some
  | unnoticed _ _ _ written ih => simp [written port, ih]
  | concat _ entry ih =>
    cases entry with
    | committed _ _ written => simp [written port, ih]
    | accepted | took | made | reviewed | failed => exact ih

/-- What is said of a port that no change names: it is forced only if it was recorded
forwarding at first, and then it is until it is recorded discarding. -/
structure Spared (first : Ledger) (port : PortRef) (log : Log) (ledger : Ledger) : Prop where
  apart : ¬Ends ledger.table.links port
  forced : port ∈ ledger.forced →
    first.records[port]? = some .forwarding ∧ log.commits = 0
  record : ledger.records[port]? = first.records[port]? ∨
    (first.records[port]? = some .forwarding ∧ ledger.records[port]? = some .discarding)
  owed : ledger.reconciled = true → ledger.records[port]? = some .forwarding →
    port ∈ ledger.forced

/-- Writing the target discards the port if it is forced. -/
theorem Spared.writes {records : StatusMap} (spared : Spared first port log ledger)
    (reconciled : ledger.reconciled = true)
    (written : ledger.target.Writes ledger.records records) :
    (records[port]? = first.records[port]? ∨
      (first.records[port]? = some .forwarding ∧ records[port]? = some .discarding)) ∧
      records[port]? ≠ some .forwarding := by
  rw [getElem?_of_writes_of_not_ends written spared.apart]
  by_cases forced : port ∈ ledger.forced
  · rw [if_pos forced]
    exact ⟨.inr ⟨(spared.forced forced).1, rfl⟩, by simp⟩
  · rw [if_neg forced]
    exact ⟨spared.record, fun forwarding => forced (spared.owed reconciled forwarding)⟩

theorem Path.spared (path : Path first log ledger) (unread : first.reconciled = false)
    (fresh : first.forced = ∅) (bare : ¬Ends first.table.links port)
    (unnamed : ∀ change ∈ log.made, ¬Ends change.links port) :
    Spared first port log ledger := by
  induction path with
  | nil => exact ⟨bare, by simp [fresh], .inl rfl, by simp [unread]⟩
  | unnoticed _ _ reconciled written ih =>
    have before := ih unnamed
    obtain ⟨record, discarded⟩ := before.writes reconciled written
    exact ⟨before.apart, before.forced, record, fun _ forwarding => absurd forwarding discarded⟩
  | @concat log _ ledger _ path entry ih =>
    rw [Log.made_append, List.forall_mem_append] at unnamed
    have before := ih unnamed.1
    cases entry with
    | accepted | took | failed =>
      exact ⟨before.apart, by simpa using before.forced, before.record, before.owed⟩
    | made change =>
      have foreign := unnamed.2 change List.mem_cons_self
      have same : port ∈ ledger.forced.insertMany change.releasedPorts ↔ port ∈ ledger.forced := by
        rw [mem_forced_iff_of_made]
        exact or_iff_left fun released => foreign (change.ends_of_mem_releasedPorts released)
      refine ⟨fun ends => ?_, fun forced => ?_, before.record, fun reconciled forwarding => ?_⟩
      · exact (change.ends_of_ends_file ends).elim before.apart foreign
      · simpa using before.forced (same.1 forced)
      · exact same.2 (before.owed reconciled forwarding)
    | reviewed _ first stale =>
      obtain ⟨_, _, none, kept⟩ := (path.readings_eq unread).resolve_left (by simp [first])
      refine ⟨before.apart, fun forced => ?_, before.record, fun _ forwarding => ?_⟩
      · rcases (stale port).1 forced with already | found
        · simpa using before.forced already
        · exact ⟨kept ▸ found.1, by simp [none]⟩
      · exact (stale port).2 (.inr ⟨forwarding, before.apart⟩)
    | committed _ reconciled written =>
      obtain ⟨record, discarded⟩ := before.writes reconciled written
      exact ⟨before.apart, by simp, record, fun _ forwarding => absurd forwarding discarded⟩

/-- Once a refresh has committed, the port does not forward unless a link asks for it. -/
theorem Spared.getElem?_records (spared : Spared first port log ledger)
    (reconciled : ledger.reconciled = true) (committed : 0 < log.commits) :
    ledger.records[port]? =
      if first.records[port]? = some .forwarding then some .discarding
      else first.records[port]? := by
  rcases spared.record with same | ⟨forwarding, discarding⟩
  · have discarded : first.records[port]? ≠ some .forwarding := fun forwarding =>
      absurd (spared.forced (spared.owed reconciled (same.trans forwarding))).2 committed.ne'
    rw [if_neg discarded, same]
  · rw [if_pos forwarding, discarding]

/-- Only the first commit writes the port, and only to discard it. -/
theorem Spared.getElem?_target (spared : Spared first port log ledger)
    (reconciled : ledger.reconciled = true)
    (kept : log.commits = 0 → ledger.records = first.records) :
    ledger.target[port]? =
      if log.commits = 0 ∧ first.records[port]? = some .forwarding then some .discarding
      else none := by
  rw [Ledger.getElem?_target, if_neg spared.apart]
  by_cases forced : port ∈ ledger.forced
  · rw [if_pos forced, if_pos (spared.forced forced).symm]
  · rw [if_neg forced, if_neg]
    rintro ⟨none, forwarding⟩
    exact forced (spared.owed reconciled (kept none ▸ forwarding))

end Ledger

namespace World

variable {σ : Type} [StatusStore σ] [LawfulStore σ]

/-- A port that no accepted event names is spared. -/
theorem spared_run (settings : Settings) (policy : RetryPolicy) (store : σ) (clock : Nat)
    {acts : List (Act σ)} (sole : SoleWriter acts) {port : PortRef} :
    let world := (start settings policy store clock).run acts
    ¬Input.Concerns settings.hostMarker world.log.accepted port →
      Ledger.Spared { records := records store } port world.log world.engine.ledger := by
  intro world unnamed
  have booked : world.Booked { records := records store } :=
    booked_run settings policy store clock sole
  have conserved : world.Conserved := conserved_run settings policy store clock acts
  have settled : world.engine.settings = settings := settings_run _ acts
  refine booked.path.spared rfl rfl ?_ fun change made ends => unnamed ?_
  · rintro ⟨link, mem, _⟩
    cases mem
  · have asked : change ∈ Input.allChanges settings.hostMarker world.log.accepted := by
      rw [← settled, ← conserved.order]
      exact List.mem_append_left _ (List.mem_append_left _ made)
    exact .of_change asked ends

/-- A refresh writes no port but those that accepted events name and those that had a
record at first. -/
theorem concerns_or_recorded_of_proposal (settings : Settings) (policy : RetryPolicy) (store : σ)
    (clock : Nat) {acts : List (Act σ)} (sole : SoleWriter acts) :
    let world := (start settings policy store clock).run acts
    ∀ desired, world.engine.proposal = some desired → ∀ port ∈ desired,
      Input.Concerns settings.hostMarker world.log.accepted port ∨ port ∈ records store := by
  intro world desired proposed port inside
  by_cases named : Input.Concerns settings.hostMarker world.log.accepted port
  · exact .inl named
  · have spared := spared_run settings policy store clock sole named
    have booked : world.Booked { records := records store } :=
      booked_run settings policy store clock sole
    obtain ⟨rfl, _⟩ := booked.faithful.proposed desired proposed
    rw [Std.ExtTreeMap.mem_iff_isSome_getElem?, Ledger.getElem?_target, if_neg spared.apart] at inside
    have forced : port ∈ world.engine.ledger.forced := by
      by_contra unforced
      rw [if_neg unforced] at inside
      cases inside
    refine .inr (Std.ExtTreeMap.mem_iff_isSome_getElem?.2 ?_)
    rw [(spared.forced forced).1]
    rfl

/-- No record ever goes away. The records are looked through once, and show what was
there at first. And where an application that fails writes nothing, a port that no
accepted event names keeps its record, and no refresh is about to write it, with one
exception: recorded forwarding at first, it is recorded discarding from the first commit
on. -/
theorem unnamed_ports_keep_their_records (settings : Settings) (policy : RetryPolicy) (store : σ)
    (clock : Nat) (acts : List (Act σ)) (sole : SoleWriter acts) :
    let world := (start settings policy store clock).run acts
    (∀ later : List (Act σ), SoleWriter later → ∀ port : PortRef,
        (records world.engine.store)[port]?.isSome →
          (records (world.run later).engine.store)[port]?.isSome) ∧
      (world.log.readings = [records store] ∨
        (world.log.readings = [] ∧ world.log.commits = 0)) ∧
      (AbortingStore σ → ∀ port : PortRef,
        ¬Input.Concerns settings.hostMarker world.log.accepted port →
        ((records world.engine.store)[port]? =
          if 0 < world.log.commits ∧ (records store)[port]? = some .forwarding then
            some .discarding
          else (records store)[port]?) ∧
        ∀ desired, world.engine.proposal = some desired →
          desired[port]? =
            if world.log.commits = 0 ∧ (records store)[port]? = some .forwarding then
              some .discarding
            else none) := by
  intro world
  have booked : world.Booked { records := records store } :=
    booked_run settings policy store clock sole
  have readings := booked.path.readings_eq rfl
  refine ⟨fun later sole' port some => ?_, ?_, fun _ port unnamed => ?_⟩
  · obtain ⟨_, _, _, path⟩ := path_run booked.faithful sole'
    exact path.isSome_records some
  · exact readings.imp And.right fun none => ⟨none.2.1, none.2.2.1⟩
  · have spared := spared_run settings policy store clock sole unnamed
    have kept : world.log.commits = 0 → records world.engine.store = records store :=
      (records_run sole).2
    refine ⟨?_, fun desired proposed => ?_⟩
    · rcases Nat.eq_zero_or_pos world.log.commits with none | committed
      · rw [kept none, if_neg fun first => absurd none first.1.ne']
      · have reconciled := (readings.resolve_right fun none => committed.ne' none.2.2.1).1
        simp only [committed, true_and]
        exact spared.getElem?_records reconciled committed
    · obtain ⟨rfl, reconciled⟩ := booked.faithful.proposed desired proposed
      exact spared.getElem?_target reconciled kept

/-- The chain, with a host at port `9` of `A`. -/
def chainWithHost : LinkEvent where
  created := ⟨⟨"host-ab"⟩, .of "A" "9", .of "host" "1"⟩ :: chain.created

/-- The store fails the first refresh of the chain, and knows ports that the chain does
not name. -/
def knownPorts : MemoryStore where
  records := StatusMap.overwrite ∅ [(.of "D" "1", .forwarding), (.of "D" "2", .discarding)]
  failures := [.conflict ""]

def chainAmongKnownPorts : List (Act MemoryStore) :=
  Act.whole (.event chainWithHost) ++ List.replicate 12 .work

/-- After the second refresh the ports of the chain are recorded; of those that it does
not name one is discarding now, one stays discarding, and the host's has no record. -/
theorem chain_leaves_known_ports :
    let world := (start ⟨0, 0, "host"⟩ ⟨1, 0⟩ knownPorts 0).run chainAmongKnownPorts
    let recorded := records world.engine.store
    SoleWriter chainAmongKnownPorts ∧ world.log.commits = 1 ∧ world.log.starts = 2 ∧
      recorded[PortRef.of "A" "1"]? = some .forwarding ∧
      recorded[PortRef.of "D" "1"]? = some .discarding ∧
      recorded[PortRef.of "D" "2"]? = some .discarding ∧
      recorded[PortRef.of "A" "9"]? = none := by
  intro world recorded
  have sole : SoleWriter chainAmongKnownPorts := by
    simp [SoleWriter, chainAmongKnownPorts, Act.whole]
  have accepted : world.log.accepted = [.event chainWithHost] := by decide +kernel
  have unnamed (port : PortRef) (apart : ∀ link ∈ chain.created, port ∉ link.endpoints) :
      ¬Input.Concerns "host" world.log.accepted port := by
    rintro ⟨event, inside, link, mem, fabric, here⟩
    rw [accepted, List.mem_singleton, Input.event.injEq] at inside
    subst inside
    rcases List.mem_cons.1 mem with rfl | listed
    · exact absurd fabric (by decide +kernel)
    · exact apart link (List.append_nil chain.created ▸ listed) here
  have committed : world.log.commits = 1 := by decide +kernel
  have twice : world.log.starts = 2 := by decide +kernel
  obtain ⟨_, _, spared⟩ := unnamed_ports_keep_their_records ⟨0, 0, "host"⟩ ⟨1, 0⟩ knownPorts 0
    chainAmongKnownPorts sole
  have left (port : PortRef) (apart : ∀ link ∈ chain.created, port ∉ link.endpoints) :
      recorded[port]? =
        if knownPorts.records[port]? = some .forwarding then some .discarding
        else knownPorts.records[port]? := by
    have once : 0 < world.log.commits := by simp [committed]
    have kept : recorded[port]? = if 0 < world.log.commits ∧ _ then _ else _ :=
      (spared inferInstance port (unnamed port apart)).1
    simp only [once, true_and] at kept
    exact kept
  refine ⟨sole, committed, twice, by decide +kernel, ?_, ?_, ?_⟩
  · exact (left _ (by decide)).trans (by decide +kernel)
  · exact (left _ (by decide)).trans (by decide +kernel)
  · exact (left _ (by decide)).trans (by decide +kernel)

end World

end LoopGuard
