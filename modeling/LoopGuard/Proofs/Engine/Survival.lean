import LoopGuard.Proofs.Engine.Idle
import LoopGuard.Proofs.Engine.LoopFree
import LoopGuard.Proofs.Engine.Stale

/-!
# What is owed survives failures

A refresh that fails leaves its work half done: the slot is empty and the graph
has changed, but nothing is recorded. What the removals of an event owe is not
lost on the way. The refresh that takes the event makes them all before it ends
(`Log.Clears`), from then on their ports are owed a discard until a refresh
commits, and the commit records every port that is owed one
(`World.Booked.discharged`), however many refreshes fail in between. Over a store
that writes nothing when it fails, these change no record
(`World.records_run`).
-/

namespace LoopGuard

/-- The note starts or ends a refresh. -/
def Note.isBound : Note → Bool
  | .took | .committed | .failed => true
  | .accepted _ | .made _ | .reviewed .. => false

namespace Log

variable {log notes : Log} {marker : String}

/-- Whenever a refresh starts or ends, what was accepted by then is made or waits. -/
def Clears (marker : String) (log : Log) : Prop :=
  ∀ (before : Log) (note : Note) (after : Log), log = before ++ note :: after →
    note.isBound = true →
      before.made ++ Input.allChanges marker before.unread =
        Input.allChanges marker before.accepted

theorem Clears.append (clears : log.Clears marker)
    (bounds : ∀ (before : Log) (note : Note) (after : Log), notes = before ++ note :: after →
      note.isBound = true →
        made (log ++ before) ++ Input.allChanges marker (unread (log ++ before)) =
          Input.allChanges marker (accepted (log ++ before))) :
    Clears marker (log ++ notes) := by
  intro before note after whole bound
  rcases List.append_eq_append_iff.1 whole with ⟨middle, rfl, later⟩ | ⟨middle, rfl, later⟩
  · exact bounds middle note after later bound
  · cases middle with
    | nil => simpa using bounds [] note after later.symm bound
    | cons first middle =>
      obtain ⟨rfl, rfl⟩ := List.cons_eq_cons.1 later
      exact clears before _ middle rfl bound

/-- What waits came in since the last start of a refresh. -/
theorem unread_suffix (log notes : Log) : unread (log ++ .took :: notes) <:+ accepted notes := by
  induction notes using List.reverseRecOn with
  | nil => simp
  | append_singleton notes note ih =>
    rw [← List.cons_append, ← List.append_assoc, unread_concat, accepted_append,
      accepted_singleton]
    cases note with
    | accepted input => exact List.suffix_append_self_iff.2 ih
    | took => exact List.nil_suffix
    | made | reviewed | committed | failed => simpa using ih

/-- Between the start of a refresh and the end of that or a later one, all that
waited at the start is made. -/
theorem Clears.made_eq {before since after : Log}
    (clears : Clears marker (before ++ .took :: (since ++ .committed :: after))) :
    ∃ more, since.made = Input.allChanges marker before.unread ++ more := by
  have start := clears before .took _ rfl rfl
  have stop := clears (before ++ .took :: since) .committed after (by simp) rfl
  obtain ⟨earlier, all⟩ := unread_suffix before since
  refine ⟨Input.allChanges marker earlier, ?_⟩
  have made : made (before ++ .took :: since) = before.made ++ since.made := made_append
  have accepted : accepted (before ++ .took :: since) = before.accepted ++ since.accepted :=
    accepted_append
  simp only [made, accepted, ← all, Input.allChanges, List.flatMap_append] at start stop
  rw [← start] at stop
  exact List.append_cancel_left (List.append_cancel_right (stop.trans (by simp [Input.allChanges])))

/-- The changes of an accepted input are made between the next start of a refresh
and any commit after it. -/
theorem Clears.mem_made {l₁ l₂ l₃ l₄ : Log} {input : Input}
    (clears : Clears marker
      (l₁ ++ .accepted input :: (l₂ ++ .took :: (l₃ ++ .committed :: l₄))))
    (next : l₂.starts = 0) {change : LinkChange} (asked : change ∈ input.changes marker) :
    change ∈ l₃.made := by
  have waits : input ∈ unread (l₁ ++ [.accepted input] ++ l₂) := by
    rw [unread_append next]
    simp
  have clears : Clears marker
      (l₁ ++ [.accepted input] ++ l₂ ++ .took :: (l₃ ++ .committed :: l₄)) := by
    simpa using clears
  obtain ⟨more, made⟩ := clears.made_eq
  rw [made]
  exact List.mem_append_left _ (List.mem_flatMap.2 ⟨input, waits, asked⟩)

theorem mem_made {change : LinkChange} : change ∈ log.made ↔ .made change ∈ log := by
  rw [made, List.mem_filterMap]
  constructor
  · rintro ⟨note, mem, same⟩
    cases note with
    | made => exact Option.some.inj same ▸ mem
    | accepted | took | reviewed | committed | failed => cases same
  · exact fun mem => ⟨.made change, mem, rfl⟩

theorem sinceCommit_append (none : commits notes = 0) :
    sinceCommit (log ++ notes) = log.sinceCommit ++ notes := by
  induction notes using List.reverseRecOn with
  | nil => simp
  | append_singleton notes note ih =>
    rw [commits_append, Nat.add_eq_zero_iff] at none
    rw [← List.append_assoc, sinceCommit_concat, ih none.1]
    cases note with
    | committed => simp at none
    | accepted | took | made | reviewed | failed => exact List.append_assoc ..

/-- Until a commit, what owes a port its discard goes on owing it. -/
theorem owes_sinceCommit {port : PortRef} {note : Note} (none : commits notes = 0)
    (mem : note ∈ notes) (owes : note.Owes port) :
    Owes (sinceCommit (log ++ notes)) port := by
  rw [sinceCommit_append none]
  exact ⟨note, List.mem_append_right _ mem, owes⟩

end Log

namespace Ledger

variable {first ledger : Ledger} {log : Log}

/-- After a commit the records are those that it wrote. -/
theorem Path.of_committed (path : Path first (log ++ [.committed]) ledger) :
    ∃ before, Path first log before ∧ ledger.refreshing = false ∧ ledger.table = before.table ∧
      before.target.Writes before.records ledger.records := by
  generalize whole : log ++ [Note.committed] = all at path
  induction path with
  | nil => simp at whole
  | concat path entry =>
    obtain ⟨rfl, last⟩ := List.append_inj' whole rfl
    cases last
    cases entry with
    | committed _ _ written => exact ⟨_, path, rfl, rfl, written⟩
  | unnoticed _ refreshing _ _ ih =>
    obtain ⟨_, _, resting, _⟩ := ih whole
    rw [resting] at refreshing
    cases refreshing

end Ledger

variable {σ : Type} [StatusStore σ]

namespace Engine

variable {engine next : Engine σ} {notes : Log}

/-- A refresh starts and ends with nothing in hand. -/
theorem Move.inHand_of_isBound (move : Move engine notes next) {note : Note} (mem : note ∈ notes)
    (bound : note.isBound = true) : engine.inHand = [] := by
  cases move with
  | take activity | unread activity | settle activity | propose activity | commit activity
  | giveUp activity => simp [inHand, activity]
  | change =>
    rw [List.mem_singleton.1 mem] at bound
    cases bound
  | _ => cases mem

/-- A step that starts or ends a refresh makes no change. -/
theorem Move.made_of_isBound (move : Move engine notes next) {note : Note} (mem : note ∈ notes)
    (bound : note.isBound = true) : Log.made notes = [] := by
  rcases move.hand with ⟨_, made, _⟩ | ⟨_, hand, _⟩
  · exact made
  · rw [move.inHand_of_isBound mem bound, List.append_eq_nil_iff] at hand
    exact hand.1

variable [LawfulStore σ]

theorem Reading.records_eq {read : Engine σ} (reading : Reading engine notes read) :
    records read.store = records engine.store := by
  cases reading with
  | done => rfl
  | first => exact LawfulStore.records_recorded _

/-- A step that does not commit changes no record. -/
theorem Move.records_eq [AbortingStore σ] (move : Move engine notes next)
    (none : Log.commits notes = 0) : records next.store = records engine.store := by
  cases move with
  | settle | commit => simp at none
  | propose _ reading => exact reading.records_eq
  | unread => exact LawfulStore.records_recorded _
  | pause _ _ failed | giveUp _ _ failed => exact AbortingStore.records_of_error failed
  | _ => rfl

end Engine

namespace World

variable {before after world : World σ}

section Clears

variable {allowed : (σ → σ) → Prop}

theorem Turn.clears (turn : Turn allowed before after) (conserved : before.Conserved)
    (aligned : before.Aligned)
    (clears : before.log.Clears before.engine.settings.hostMarker) :
    after.log.Clears before.engine.settings.hostMarker := by
  cases turn with
  | work move =>
    refine clears.append fun earlier note later whole bound => ?_
    have mem : note ∈ earlier ++ note :: later := by simp
    have order := conserved.order
    rw [aligned.changes, move.inHand_of_isBound (whole ▸ mem) bound, List.append_nil] at order
    rcases move.steady with ⟨_, rfl, _⟩ | steady
    · -- nothing comes before the start of a refresh
      obtain rfl : earlier = [] := by
        cases earlier with
        | nil => rfl
        | cons => simp at whole
      rwa [List.append_nil]
    · have made := move.made_of_isBound (whole ▸ mem) bound
      have accepted := move.accepted_eq
      have starts := steady.starts
      rw [whole, Log.made_append, List.append_eq_nil_iff] at made
      rw [whole, Log.accepted_append, List.append_eq_nil_iff] at accepted
      rw [whole, Log.starts_append, Nat.add_eq_zero_iff] at starts
      rwa [Log.unread_append starts.1, Log.made_append, Log.accepted_append, made.1, accepted.1,
        List.append_nil, List.append_nil, List.append_nil]
  | accept input =>
    refine clears.append fun earlier note later whole bound => ?_
    cases earlier with
    | nil =>
      cases whole
      cases bound
    | cons => simp at whole
  | halt | inspect | beside | aside => exact clears

theorem clears_run (settings : Settings) (policy : RetryPolicy) (store : σ) (clock : Nat)
    (acts : List (Act σ)) :
    ((start settings policy store clock).run acts).log.Clears settings.hostMarker := by
  refine (run_induction_any (motive := fun world => world.Conserved ∧ world.Aligned ∧
    world.engine.settings = settings ∧ world.log.Clears settings.hostMarker) acts
    ⟨conserved_start .., aligned_start .., rfl, ?_⟩ ?_).2.2.2
  · intro before note after whole
    simp [start] at whole
  · rintro before after turn ⟨conserved, aligned, rfl, clears⟩
    exact ⟨turn.conserved conserved, turn.aligned aligned, turn.settings_eq,
      turn.clears conserved aligned clears⟩

end Clears

variable [LawfulStore σ]

/-- A turn that does not commit changes no record. -/
theorem Turn.records_eq [AbortingStore σ] (turn : Turn KeepsRecords before after) :
    before.log.commits ≤ after.log.commits ∧
      (after.log.commits = before.log.commits →
        records after.engine.store = records before.engine.store) := by
  cases turn with
  | work move =>
    rw [Log.commits_append]
    exact ⟨Nat.le_add_right .., fun same => move.records_eq (Nat.add_eq_left.1 same)⟩
  | accept => exact ⟨by simp, fun _ => rfl⟩
  | beside may => exact ⟨Nat.le_refl _, fun _ => may _⟩
  | halt | inspect | aside => exact ⟨Nat.le_refl _, fun _ => rfl⟩

/-- As long as no refresh commits, no record changes. -/
theorem records_run [AbortingStore σ] {acts : List (Act σ)} (sole : SoleWriter acts) :
    world.log.commits ≤ (world.run acts).log.commits ∧
      ((world.run acts).log.commits = world.log.commits →
        records (world.run acts).engine.store = records world.engine.store) := by
  refine run_induction (motive := fun after => world.log.commits ≤ after.log.commits ∧
    (after.log.commits = world.log.commits →
      records after.engine.store = records world.engine.store)) sole
    ⟨Nat.le_refl _, fun _ => rfl⟩ fun turn ih => ?_
  obtain ⟨more, same⟩ := turn.records_eq
  exact ⟨ih.1.trans more, fun none => (same (by omega)).trans (ih.2 (by omega))⟩

/-- The port is recorded as its links ask for, and discarding if it has none. -/
structure Discharged (world : World σ) (port : PortRef) : Prop where
  apart : ¬Ends world.engine.graph.allLinks port →
    (records world.engine.store)[port]? = some .discarding
  linked : Ends world.engine.graph.allLinks port → ∃ status,
    (StatusMap.resolve world.engine.graph.allLinks
      (.compute world.engine.graph.allLinks))[port]? = some status ∧
    (records world.engine.store)[port]? = some status

/-- A commit records every port that something since the last one owes a discard. -/
theorem Booked.discharged {first : Ledger} (booked : world.Booked first)
    (fresh : first.forced = ∅) {log : Log} (whole : world.log = log ++ [.committed])
    {port : PortRef} (owed : log.sinceCommit.Owes port) : world.Discharged port := by
  obtain ⟨before, path, _, table, written⟩ := (whole ▸ booked.path).of_committed
  have forced : port ∈ before.forced := (path.mem_forced_iff fresh).2 owed
  have links : world.engine.graph.allLinks = before.table.links := congrArg LinkTable.links table
  constructor
  · intro apart
    rw [links] at apart
    exact (Ledger.getElem?_of_writes_of_not_ends written apart).trans (if_pos forced)
  · rw [links]
    intro ends
    obtain ⟨status, resolved⟩ := LinkTable.exists_status ends
    exact ⟨status, resolved, (Ledger.getElem?_of_writes written ends).trans resolved⟩

/-- Over a store that writes nothing when it fails, no record changes as long as no
refresh commits, whatever else happens. And over any store, whatever fails in between,
the first commit at or after the refresh that took an event records every end of the
links of the fabric that the event removed: with the status that the links ask for, or
discarding if no link ends there any more. The same goes for the ports that the look
through the records found stale. -/
theorem discards_survive_failures (settings : Settings) (policy : RetryPolicy) (store : σ)
    (clock : Nat) (acts : List (Act σ)) (sole : SoleWriter acts) :
    let world := (start settings policy store clock).run acts
    (AbortingStore σ → ∀ later : List (Act σ), SoleWriter later →
        (world.run later).log.commits = world.log.commits →
        records (world.run later).engine.store = records world.engine.store) ∧
      (∀ (event : LinkEvent) (l₁ l₂ l₃ : Log),
        world.log =
          l₁ ++ .accepted (.event event) :: (l₂ ++ .took :: (l₃ ++ [.committed])) →
        l₂.starts = 0 → l₃.commits = 0 →
        ∀ link ∈ event.removed, link.isHostLink settings.hostMarker = false →
          ∀ port ∈ link.endpoints, world.Discharged port) ∧
      (∀ (found : StatusMap) (links : List Link) (l₁ l₂ : Log),
        world.log = l₁ ++ .reviewed found links :: (l₂ ++ [.committed]) → l₂.commits = 0 →
        ∀ port : PortRef, found[port]? = some .forwarding → ¬Ends links port →
          world.Discharged port) := by
  intro world
  have booked : world.Booked { records := records store } :=
    booked_run settings policy store clock sole
  have clears : world.log.Clears settings.hostMarker := clears_run settings policy store clock acts
  refine ⟨fun _ later sole' => (records_run sole').2, ?_, ?_⟩
  · intro event l₁ l₂ l₃ whole next first link removed fabric port here
    have kept : link ∈ (event.withoutHostLinks settings.hostMarker).removed :=
      List.mem_filter.2 ⟨removed, by simp [fabric]⟩
    have asked : .remove (event.withoutHostLinks settings.hostMarker).removed ∈
        (Input.event event).changes settings.hostMarker := by
      simp [Input.changes, LinkEvent.changes, List.ne_nil_of_mem kept]
    have made := Log.mem_made.1 ((whole ▸ clears).mem_made next asked)
    have whole : world.log =
        l₁ ++ [.accepted (.event event)] ++ l₂ ++ [.took] ++ l₃ ++ [.committed] := by
      simp [whole]
    refine booked.discharged rfl whole (Log.owes_sinceCommit first made ?_)
    exact List.mem_flatMap.2 ⟨link, kept, here⟩
  · intro found links l₁ l₂ whole first port forwarding apart
    have whole : world.log = l₁ ++ [.reviewed found links] ++ l₂ ++ [.committed] := by
      simp [whole]
    have reviewed : .reviewed found links ∈ [.reviewed found links] ++ l₂ :=
      List.mem_append_left _ List.mem_cons_self
    rw [List.append_assoc l₁] at whole
    refine booked.discharged rfl whole (Log.owes_sinceCommit ?_ reviewed ⟨forwarding, apart⟩)
    rw [Log.commits_append, Log.commits_singleton, first]

/-- A store that knows port `1` of `C` from before, and fails once. -/
def failingOnce : MemoryStore where
  records := StatusMap.overwrite ∅ [(.of "C" "1", .forwarding)]
  failures := [.conflict ""]

/-- A cut is reported. Its first refresh fails, the second commits. -/
def cutInOutage : List (Act MemoryStore) :=
  Act.whole (.event (cutAt "1")) ++ List.replicate 11 .work

/-- After the second refresh the ends of the cut discard, and so does the port known
from before. -/
theorem cut_in_outage_is_discarded :
    let world := (start ⟨0, 0, ""⟩ ⟨1, 0⟩ failingOnce 0).run cutInOutage
    SoleWriter cutInOutage ∧ world.log.starts = 2 ∧ world.log.commits = 1 ∧
      world.Discharged (.of "A" "1") ∧ world.Discharged (.of "B" "1") ∧
      world.Discharged (.of "C" "1") ∧ world.engine.graph.allLinks = [] := by
  intro world
  have sole : SoleWriter cutInOutage := by simp [SoleWriter, cutInOutage, Act.whole]
  have log : world.log = [] ++ .accepted (.event (cutAt "1")) :: ([] ++ .took ::
      ([.made (.remove (cutAt "1").removed), .reviewed failingOnce.records [], .failed, .took] ++
        [.committed])) := by
    rfl
  obtain ⟨_, removed, found⟩ := discards_survive_failures _ _ _ _ _ sole
  have ends := removed _ _ _ _ log rfl rfl _ List.mem_cons_self (by decide +kernel)
  have known := found _ _ [_, _, _] [_, _] log rfl (.of "C" "1") (by decide +kernel) (by decide)
  have empty : world.engine.graph.allLinks = [] := by decide +kernel
  exact ⟨sole, by rw [log]; rfl, by rw [log]; rfl, ends _ (by decide), ends _ (by decide), known,
    empty⟩

end World

end LoopGuard
