import LoopGuard.Proofs.Engine.Rest
import LoopGuard.Proofs.Engine.Stale
import LoopGuard.Proofs.Engine.LoopFree

/-!
# The outcome does not depend on the schedule

Callers decide what comes into the slot. When the worker takes it, how often a
delay is pushed back, which commits fail and what the refreshes in between have
seen is up to the schedule. A ledger that rests nevertheless shows records that
its changes and the first records determine: a port with a link is resolved, a
port that a removal names discards, and so does one that was recorded forwarding
at first (`Ledger.Path.getElem?_records`). The invariant behind it, `Accounted`,
says for each port which of these still is to come.
-/

namespace LoopGuard

theorem Reports.namesEnds {table : LinkTable} {changes : List LinkChange}
    (reports : Reports Eq table changes) : Reports Link.NamesEnds table changes :=
  reports.mono fun same _ here => same ▸ here

theorem named_concat {changes : List LinkChange} {change : LinkChange} {port : PortRef} :
    Named (changes ++ [change]) port ↔ Named changes port ∨ port ∈ change.releasedPorts := by
  simp [Named, or_and_right, exists_or]

/-- What is recorded at a port in the end: its resolved status if a link ends in
it; otherwise a discard if a removal names it or it was recorded forwarding at
first; otherwise what was recorded at first. -/
def outcome (initial : StatusMap) (changes : List LinkChange) (port : PortRef) :
    Option PortStatus :=
  let table := LinkTable.replay ∅ changes
  if Ends table.links port then table.statuses[port]?
  else if Named changes port ∨ initial[port]? = some .forwarding then some .discarding
  else initial[port]?

namespace Ledger

variable {first ledger next : Ledger} {log : Log} {port : PortRef}

/-- What is recorded and what is forced, in terms of the first records and the
changes made. -/
structure Accounted (first : Ledger) (made : List LinkChange) (ledger : Ledger) : Prop where
  /-- Nothing is written before the records are looked through. -/
  untouched : ledger.reconciled = false → ledger.records = first.records
  forced : ∀ port ∈ ledger.forced, Named made port ∨ first.records[port]? = some .forwarding
  named : ∀ port, Named made port →
    port ∈ ledger.forced ∨ Ends ledger.table.links port ∨ ledger.records[port]? = some .discarding
  spared : ∀ port, ¬Named made port → ¬Ends ledger.table.links port →
    ledger.records[port]? = first.records[port]? ∨
      (first.records[port]? = some .forwarding ∧ ledger.records[port]? = some .discarding)

/-- Writing the target keeps what is said of the records. -/
theorem Accounted.writes {made : List LinkChange} {records : StatusMap}
    (accounted : Accounted first made ledger)
    (written : ledger.target.Writes ledger.records records) :
    (∀ port, Named made port → Ends ledger.table.links port ∨ records[port]? = some .discarding) ∧
    (∀ port, ¬Named made port → ¬Ends ledger.table.links port →
      records[port]? = first.records[port]? ∨
        (first.records[port]? = some .forwarding ∧ records[port]? = some .discarding)) := by
  constructor
  · intro port named
    by_cases ends : Ends ledger.table.links port
    · exact .inl ends
    · refine .inr ?_
      rw [getElem?_of_writes_of_not_ends written ends]
      by_cases forced : port ∈ ledger.forced
      · rw [if_pos forced]
      · rw [if_neg forced]
        exact ((accounted.named port named).resolve_left forced).resolve_left ends
  · intro port unnamed apart
    rw [getElem?_of_writes_of_not_ends written apart]
    by_cases forced : port ∈ ledger.forced
    · rw [if_pos forced]
      exact .inr ⟨(accounted.forced port forced).resolve_left unnamed, rfl⟩
    · rw [if_neg forced]
      exact accounted.spared port unnamed apart

/-- One more change leaves everything accounted for. -/
theorem Accounted.made {made : List LinkChange} {change : LinkChange}
    (accounted : Accounted first made ledger)
    (reports : Reports Link.NamesEnds ledger.table [change]) :
    Accounted first (made ++ [change])
      { ledger with
        table := change.file ledger.table
        forced := ledger.forced.insertMany change.releasedPorts } := by
  refine ⟨accounted.untouched, fun port mem => ?_, fun port named => ?_,
    fun port unnamed apart => ?_⟩
  · rw [named_concat, or_right_comm]
    exact (mem_forced_iff_of_made.1 mem).imp_left (accounted.forced port)
  · rw [mem_forced_iff_of_made]
    rcases named_concat.1 named with before | released
    · rcases accounted.named port before with owed | ends | discarding
      · exact .inl (.inl owed)
      · rcases change.ends_file_or_mem reports ends with kept | released
        · exact .inr (.inl kept)
        · exact .inl (.inr released)
      · exact .inr (.inr discarding)
    · exact .inl (.inr released)
  · rw [named_concat, not_or] at unnamed
    refine accounted.spared port unnamed.1 fun ends => ?_
    exact (change.ends_file_or_mem reports ends).elim apart unnamed.2

theorem Path.accounted (path : Path first log ledger) (fresh : first.forced = ∅)
    (reports : Reports Link.NamesEnds first.table log.made) :
    Accounted first log.made ledger := by
  induction path with
  | nil =>
    refine ⟨fun _ => rfl, ?_, ?_, fun _ _ _ => .inl rfl⟩
    · simp [fresh]
    · rintro port ⟨_, mem, _⟩
      cases mem
  | unnoticed _ _ reconciled written ih =>
    have before := ih reports
    obtain ⟨named, spared⟩ := before.writes written
    refine ⟨fun unread => ?_, before.forced, fun port here => .inr (named port here), spared⟩
    rw [reconciled] at unread
    cases unread
  | @concat log _ ledger _ path entry ih =>
    cases entry with
    | accepted | took | failed =>
      simp only [Log.made_append, Log.made_singleton, List.append_nil] at reports ⊢
      obtain ⟨untouched, forced, named, spared⟩ := ih reports
      exact ⟨untouched, forced, named, spared⟩
    | made change _ =>
      simp only [Log.made_append, Log.made_singleton, reports_append, ← path.table_eq] at reports ⊢
      exact (ih reports.1).made reports.2
    | reviewed _ unread stale =>
      simp only [Log.made_append, Log.made_singleton, List.append_nil] at reports ⊢
      obtain ⟨untouched, forced, named, spared⟩ := ih reports
      refine ⟨fun unread => (by cases unread), fun port mem => ?_, fun port here => ?_, spared⟩
      · rcases (stale port).1 mem with owed | found
        · exact forced port owed
        · -- the look through the records comes before the first write
          rw [← untouched unread]
          exact .inr found.1
      · exact (named port here).imp_left fun owed => (stale port).2 (.inl owed)
    | committed _ reconciled written =>
      simp only [Log.made_append, Log.made_singleton, List.append_nil] at reports ⊢
      have before := ih reports
      obtain ⟨named, spared⟩ := before.writes written
      refine ⟨fun unread => ?_, by simp, fun port here => .inr (named port here), spared⟩
      rw [reconciled] at unread
      cases unread

/-- Once a refresh has committed, the first records and the changes made
determine what is recorded. -/
theorem Path.getElem?_records {initial : StatusMap}
    (path : Path { records := initial } log ledger)
    (reports : Reports Link.NamesEnds ∅ log.made) (settled : log.settled = true) :
    ledger.records[port]? = outcome initial log.made port := by
  have accounted := path.accounted rfl reports
  obtain ⟨reconciled, none⟩ := path.rested settled
  have nothing : port ∉ ledger.forced := none ▸ Std.ExtTreeSet.not_mem_empty
  have table : ledger.table = LinkTable.replay ∅ log.made := path.table_eq
  rw [outcome, ← table]
  by_cases ends : Ends ledger.table.links port
  · rw [if_pos ends]
    exact path.agrees settled port ends
  · rw [if_neg ends]
    by_cases named : Named log.made port
    · rw [if_pos (.inl named)]
      exact ((accounted.named port named).resolve_left nothing).resolve_left ends
    · by_cases forwarding : initial[port]? = some .forwarding
      · rw [if_pos (.inr forwarding)]
        rcases accounted.spared port named ends with same | ⟨_, discarding⟩
        · -- still forwarding, it would be forced, but the commit settled what was forced
          have stale : ledger.Stale port := ⟨same.trans forwarding, ends⟩
          exact absurd (path.forced_of_stale rfl reports reconciled stale) nothing
        · exact discarding
      · rw [if_neg (not_or.2 ⟨named, forwarding⟩)]
        refine (accounted.spared port named ends).resolve_right ?_
        exact fun was => forwarding was.1

/-- Before a refresh starts, nothing is written. -/
theorem Path.records_of_fresh (path : Path first log ledger) (resting : first.refreshing = false)
    (fresh : log.starts = 0) : ledger.refreshing = false ∧ ledger.records = first.records := by
  induction path with
  | nil => exact ⟨resting, rfl⟩
  | unnoticed _ refreshing _ _ ih =>
    rw [(ih fresh).1] at refreshing
    cases refreshing
  | concat _ entry ih =>
    rw [Log.starts_append, Nat.add_eq_zero_iff] at fresh
    have before := ih fresh.1
    cases entry with
    | accepted => exact before
    | took => simp at fresh
    | made _ refreshing | reviewed refreshing | committed refreshing | failed refreshing =>
      rw [before.1] at refreshing
      cases refreshing

/-- Before a refresh starts, none has committed. -/
theorem Path.commits_of_fresh (path : Path first log ledger) (resting : first.refreshing = false)
    (fresh : log.starts = 0) : log.commits = 0 := by
  induction path with
  | nil => rfl
  | unnoticed _ _ _ _ ih => exact ih fresh
  | concat path entry ih =>
    rw [Log.starts_append, Nat.add_eq_zero_iff] at fresh
    rw [Log.commits_append, Nat.add_eq_zero_iff]
    refine ⟨ih fresh.1, ?_⟩
    cases entry with
    | committed refreshing =>
      rw [(path.records_of_fresh resting fresh.1).1] at refreshing
      cases refreshing
    | _ => rfl

end Ledger

namespace World

variable {σ σ₁ σ₂ : Type} [StatusStore σ] [LawfulStore σ] [StatusStore σ₁] [LawfulStore σ₁]
  [StatusStore σ₂] [LawfulStore σ₂]

/-- The inputs and the first records determine what a run at rest has come to. -/
theorem Rests.outcome {settings : Settings} {policy : RetryPolicy} {store : σ} {clock : Nat}
    {acts : List (Act σ)} (sole : SoleWriter acts)
    (rests : ((start settings policy store clock).run acts).Rests) :
    let world := (start settings policy store clock).run acts
    let changes := Input.allChanges settings.hostMarker world.log.accepted
    Reports Link.NamesEnds ∅ changes →
      world.engine.graph.table = LinkTable.replay ∅ changes ∧
      ∀ port : PortRef, (records world.engine.store)[port]? =
        if world.log.accepted = [] then (records store)[port]?
        else LoopGuard.outcome (records store) changes port := by
  intro world changes reports
  have conserved := conserved_run settings policy store clock acts
  have booked := booked_run settings policy store clock sole
  obtain ⟨made, through⟩ := rests.through (paced_run settings policy store clock acts) conserved
  rw [settings_run] at made
  have made : world.log.made = changes := made
  refine ⟨made ▸ conserved.table, fun port => ?_⟩
  rcases through with ⟨none, fresh⟩ | ⟨some, settled⟩
  · rw [if_pos none]
    have untouched := (booked.path.records_of_fresh rfl fresh).2
    exact congrArg (fun recorded : StatusMap => recorded[port]?) untouched
  · rw [if_neg some]
    rw [← made] at reports ⊢
    exact booked.path.getElem?_records reports settled

/-- Two runs that accept the same inputs from the same first records and come to
rest agree on the graph and on every record, however their refreshes were timed
and whichever commits failed, if each removal reports the link that the changes
before it have left under its id, or an id that they have left unused. -/
theorem rest_is_independent_of_schedule (settings₁ settings₂ : Settings)
    (policy₁ policy₂ : RetryPolicy) (store₁ : σ₁) (store₂ : σ₂) (clock₁ clock₂ : Nat)
    (acts₁ : List (Act σ₁)) (acts₂ : List (Act σ₂))
    (marker : settings₁.hostMarker = settings₂.hostMarker)
    (initial : records store₁ = records store₂) (sole₁ : SoleWriter acts₁)
    (sole₂ : SoleWriter acts₂) :
    let world₁ := (start settings₁ policy₁ store₁ clock₁).run acts₁
    let world₂ := (start settings₂ policy₂ store₂ clock₂).run acts₂
    world₁.log.accepted = world₂.log.accepted →
      Reports Eq ∅ (Input.allChanges settings₁.hostMarker world₁.log.accepted) →
      world₁.Rests → world₂.Rests →
      world₁.engine.graph.table = world₂.engine.graph.table ∧
        world₁.engine.graph.adjacency = world₂.engine.graph.adjacency ∧
        world₁.engine.graph.spanningForest.1 = world₂.engine.graph.spanningForest.1 ∧
        records world₁.engine.store = records world₂.engine.store := by
  intro world₁ world₂ accepted reports rests₁ rests₂
  have sound₁ : world₁.engine.graph.Sound :=
    (booked_run settings₁ policy₁ store₁ clock₁ sole₁).faithful.sound
  have sound₂ : world₂.engine.graph.Sound :=
    (booked_run settings₂ policy₂ store₂ clock₂ sole₂).faithful.sound
  have named := reports.namesEnds
  obtain ⟨table₁, records₁⟩ := rests₁.outcome sole₁ named
  obtain ⟨table₂, records₂⟩ := rests₂.outcome sole₂ (by rwa [← marker, ← accepted])
  have table : world₁.engine.graph.table = world₂.engine.graph.table := by
    rw [table₁, table₂, ← marker, ← accepted]
  refine ⟨table, sound₁.toFiled.adjacency_eq sound₂.toFiled table, ?_, ?_⟩
  · rw [LinkGraph.spanningForest_fst sound₁, LinkGraph.spanningForest_fst sound₂,
      LinkGraph.allLinks, LinkGraph.allLinks, table]
  · refine Std.ExtTreeMap.ext_getElem? fun port => ?_
    rw [records₁, records₂, ← marker, ← accepted, initial]

/-- A store with a record of an earlier run. -/
def leftover : MemoryStore where
  records := (∅ : StatusMap).insert (.of "D" "1") .forwarding

/-- The chain comes up and is cut, both in one refresh. -/
def cutAtOnce : List (Act MemoryStore) :=
  Act.whole (.event chain) ++ Act.whole (.event (cutAt "1")) ++ List.replicate 12 .work

/-- The chain comes up, is committed after a failure, and is cut. -/
def cutLater : List (Act MemoryStore) :=
  Act.whole (.event chain) ++ List.replicate 20 .work ++ Act.whole (.event (cutAt "1")) ++
    List.replicate 12 .work

/-- Cut at once or later and over a store that fails, the chain comes to the
same graph and the same records. -/
theorem chain_cut_at_once_or_later :
    let world₁ := (start ⟨0, 0, ""⟩ ⟨1, 0⟩ leftover 0).run cutAtOnce
    let world₂ := (start ⟨0, 3, ""⟩ ⟨1, 0⟩ (leftover.failNext 1 (.conflict "")) 5).run cutLater
    SoleWriter cutAtOnce ∧ SoleWriter cutLater ∧
      world₁.log.accepted = world₂.log.accepted ∧
      Reports Eq ∅ (Input.allChanges "" world₁.log.accepted) ∧
      world₁.Rests ∧ world₂.Rests ∧ world₁.log.starts = 1 ∧ world₂.log.starts = 3 ∧
      world₁.engine.graph.table = world₂.engine.graph.table ∧
        world₁.engine.graph.adjacency = world₂.engine.graph.adjacency ∧
        world₁.engine.graph.spanningForest.1 = world₂.engine.graph.spanningForest.1 ∧
        records world₁.engine.store = records world₂.engine.store := by
  intro world₁ world₂
  have sole₁ : SoleWriter cutAtOnce := by simp [SoleWriter, cutAtOnce, Act.whole]
  have sole₂ : SoleWriter cutLater := by simp [SoleWriter, cutLater, Act.whole]
  have accepted : world₁.log.accepted = world₂.log.accepted := by decide +kernel
  have reports : Reports Eq ∅ (Input.allChanges "" world₁.log.accepted) := by decide +kernel
  have rests₁ : world₁.Rests := ⟨Engine.parked_of_isIdle (by decide +kernel), by decide +kernel⟩
  have rests₂ : world₂.Rests := ⟨Engine.parked_of_isIdle (by decide +kernel), by decide +kernel⟩
  have agree := rest_is_independent_of_schedule ⟨0, 0, ""⟩ ⟨0, 3, ""⟩ ⟨1, 0⟩ ⟨1, 0⟩ leftover
    (leftover.failNext 1 (.conflict "")) 0 5 cutAtOnce cutLater rfl rfl sole₁ sole₂
  have once : world₁.log.starts = 1 := by decide +kernel
  have thrice : world₂.log.starts = 3 := by decide +kernel
  exact ⟨sole₁, sole₂, accepted, reports, rests₁, rests₂, once, thrice,
    agree accepted reports rests₁ rests₂⟩

end World

end LoopGuard
