import LoopGuard.Proofs.Engine.Ledger
import LoopGuard.Proofs.Engine.Queue

/-!
# The engine keeps a ledger

Every step of the worker takes the ledger of its engine along the notes that it
leaves (`Engine.Move.path`), since what a refresh commits is what the ledger asks
for (`Engine.Faithful`). So the log of every run over a store that only the engine
writes leads to the ledger of its engine (`World.booked_run`), and what holds
along ledger paths holds in every run.
-/

namespace LoopGuard

/-- The effect changes no record. -/
def KeepsRecords {σ : Type} [StatusStore σ] [LawfulStore σ] (effect : σ → σ) : Prop :=
  ∀ store, records (effect store) = records store

/-- Nothing but the engine changes a record. -/
def SoleWriter {σ : Type} [StatusStore σ] [LawfulStore σ] (acts : List (Act σ)) : Prop :=
  ∀ effect, Act.beside effect ∈ acts → KeepsRecords effect

namespace Engine

variable {σ : Type} {engine next : Engine σ} {notes : Log}

/-- Whether a refresh is in progress, and neither committed nor given up. -/
def isRefreshing (engine : Engine σ) : Bool :=
  match engine.activity with
  | .changing _ | .committing .. | .pausing .. => true
  | _ => false

/-- A shutdown does not strike a refresh in progress. -/
theorem isRefreshing_of_canHalt (can : engine.canHalt = true) : engine.isRefreshing = false := by
  unfold canHalt at can
  cases activity : engine.activity <;> simp_all [isRefreshing]

/-- The statuses that the refresh in progress is committing. -/
def proposal (engine : Engine σ) : Option StatusMap :=
  match engine.activity with
  | .committing desired _ _ | .pausing desired _ _ => some desired
  | _ => none

variable [StatusStore σ] [LawfulStore σ]

/-- The ledger of an engine. -/
def ledger (engine : Engine σ) : Ledger where
  table := engine.graph.table
  forced := engine.forced
  reconciled := engine.reconciled
  refreshing := engine.isRefreshing
  records := records engine.store

theorem ledger_remember : engine.remember.ledger = engine.ledger := by
  simp [ledger, remember, isRefreshing, LinkGraph.table_spanningForest]

theorem ledger_beside {effect : σ → σ} (keeps : KeepsRecords effect) :
    { engine with store := effect engine.store }.ledger = engine.ledger := by
  simp [ledger, isRefreshing, keeps engine.store]

theorem ledger_fail {store : σ} (same : records store = records engine.store) :
    { engine with store }.fail.ledger = { engine.ledger with refreshing := false } := by
  simp [ledger, isRefreshing, fail, same]

theorem desired_eq_target (sound : engine.graph.Sound) : engine.desired = engine.ledger.target := by
  simp only [desired, Ledger.target, ledger, LinkTable.statuses, LinkGraph.allLinks,
    LinkGraph.table_spanningForest, LinkGraph.spanningForest_fst sound]

/-- The kept forest is that of the links, and a refresh commits what the ledger
asks for. -/
structure Faithful (engine : Engine σ) : Prop where
  sound : engine.graph.Sound
  proposed : ∀ desired, engine.proposal = some desired →
    desired = engine.ledger.target ∧ engine.reconciled = true

omit [LawfulStore σ] in
theorem Move.sound (move : Move engine notes next) (sound : engine.graph.Sound) :
    next.graph.Sound := by
  cases move with
  | change => exact LinkChange.sound_apply _ sound
  | settle _ reading => exact (reading.graph_eq ▸ sound).spanningForest
  | propose _ reading => exact (reading.graph_eq ▸ sound).spanningForest
  | _ => exact sound

omit [StatusStore σ] [LawfulStore σ] in
/-- Looking through the records finds the stale ports. -/
theorem mem_forced_reconcile (engine : Engine σ) {recorded : StatusMap} {port : PortRef} :
    port ∈ (engine.reconcile recorded).forced ↔ port ∈ engine.forced ∨
      (recorded[port]? = some .forwarding ∧ ¬Ends engine.graph.allLinks port) := by
  have terminated : (Std.ExtTreeSet.ofList (engine.graph.allLinks.flatMap Link.endpoints) :
      PortSet).contains port = true ↔ Ends engine.graph.allLinks port := by
    rw [Std.ExtTreeSet.contains_ofList, List.contains_iff_mem, ends_iff_mem_flatMap]
  simp only [reconcile, Std.ExtTreeSet.mem_insertMany_list, List.contains_iff_mem, List.mem_map,
    List.mem_filter, Prod.exists, exists_and_right, exists_eq_right, Bool.and_eq_true,
    Bool.not_eq_true', Std.ExtTreeMap.mem_toList_iff_getElem?_eq_some, ← Bool.not_eq_true,
    terminated]
  refine or_congr_right ⟨?_, ?_⟩
  · rintro ⟨status, recorded, forwarding, apart⟩
    rw [PortStatus.isForwarding, decide_eq_true_eq] at forwarding
    exact ⟨forwarding ▸ recorded, apart⟩
  · rintro ⟨recorded, apart⟩
    exact ⟨.forwarding, recorded, rfl, apart⟩

/-- The first reading finds the stale ports of the ledger. -/
theorem Reading.path {read : Engine σ} (changing : engine.activity = .changing [])
    (reading : Reading engine notes read) : Ledger.Path engine.ledger notes read.ledger := by
  cases reading with
  | done => exact .nil
  | first unread ok =>
    obtain rfl := LawfulStore.eq_of_recorded ok
    have refreshing : engine.ledger.refreshing = true := by
      simp [ledger, isRefreshing, changing]
    have entry := Ledger.Entry.reviewed refreshing unread fun port =>
      mem_forced_reconcile { engine with store := (StatusStore.recorded engine.store).2 }
    have after (forced : PortSet) :
        { engine.ledger with forced, reconciled := true } =
          ({ engine with
            store := (StatusStore.recorded engine.store).2
            forced, reconciled := true } : Engine σ).ledger := by
      simp [ledger, isRefreshing, LawfulStore.records_recorded]
    rw [after] at entry
    exact .single entry

/-! ## Every step is a path -/

omit [LawfulStore σ] in
/-- What a step proposes is what was proposed, or what the engine desires. -/
theorem Move.proposal (move : Move engine notes next) {desired : StatusMap}
    (proposed : next.proposal = some desired) :
    (engine.proposal = some desired ∧ next.forced = engine.forced ∧ next.graph = engine.graph ∧
        next.reconciled = engine.reconciled) ∨
      ∃ read, Reading engine notes read ∧ next.forced = read.forced ∧
        next.graph = read.remember.graph ∧ next.reconciled = read.reconciled ∧
        desired = read.desired := by
  cases move with
  | wait => exact .inl ⟨proposed, rfl, rfl, rfl⟩
  | propose _ reading =>
    exact .inr ⟨_, reading, rfl, rfl, rfl, (Option.some.inj proposed).symm⟩
  | pause activity | retry activity =>
    refine .inl ⟨?_, rfl, rfl, rfl⟩
    simpa [Engine.proposal, activity, attempt] using proposed
  | _ => cases proposed

theorem Move.faithful (move : Move engine notes next) (faithful : engine.Faithful) :
    next.Faithful := by
  refine ⟨move.sound faithful.sound, fun desired proposed => ?_⟩
  rcases move.proposal proposed with ⟨before, forced, graph, reconciled⟩ |
      ⟨read, reading, forced, graph, reconciled, rfl⟩
  · obtain ⟨rfl, done⟩ := faithful.proposed desired before
    refine ⟨?_, reconciled.trans done⟩
    simp only [Ledger.target, ledger, forced, graph]
  · refine ⟨?_, reconciled.trans reading.reconciled_eq⟩
    have sound : read.graph.Sound := reading.graph_eq ▸ faithful.sound
    rw [desired_eq_target sound, ← ledger_remember]
    simp only [Ledger.target, ledger, forced, graph, remember]

/-- An attempt that is reported failed has written, or it has not. -/
theorem path_failed {desired : StatusMap} {number due : Nat} {error : StoreError}
    (committing : engine.activity = .committing desired number due)
    (failed : (StatusStore.apply engine.store desired).1 = .error error)
    (faithful : engine.Faithful) :
    Ledger.Path engine.ledger []
      { engine with store := (StatusStore.apply engine.store desired).2 }.ledger := by
  obtain ⟨target, reconciled⟩ :=
    faithful.proposed desired (by simp [Engine.proposal, committing])
  have refreshing : engine.ledger.refreshing = true := by
    simp [ledger, isRefreshing, committing]
  rcases LawfulStore.writes_of_error failed with same | written
  · exact .of_eq (by simp [ledger, isRefreshing, same])
  · rw [target] at written ⊢
    exact .unnoticed .nil refreshing reconciled written

/-- What a step notes leads to the ledger after it. -/
theorem Move.path (move : Move engine notes next) (faithful : engine.Faithful) :
    Ledger.Path engine.ledger notes next.ledger := by
  cases move with
  | wait => exact .nil
  | woken activity | park activity | schedule activity | pushBack activity | ready activity
  | retry activity | again activity | rest activity =>
    exact .of_eq (by simp [ledger, isRefreshing, activity, enter, delay, attempt])
  | take taking =>
    have resting : engine.ledger.refreshing = false := by simp [ledger, isRefreshing, taking]
    exact .single (.took resting)
  | @change next later changing =>
    have refreshing : engine.ledger.refreshing = true := by
      simp [ledger, isRefreshing, changing]
    have after : (engine.change next later).ledger = { engine.ledger with
        table := next.file engine.ledger.table
        forced := engine.ledger.forced.insertMany next.releasedPorts } := by
      simp [ledger, isRefreshing, changing, Engine.change, LinkChange.table_apply]
    rw [after]
    exact .single (.made next refreshing)
  | unread changing first failed =>
    have refreshing : engine.ledger.refreshing = true := by
      simp [ledger, isRefreshing, changing]
    rw [ledger_fail (LawfulStore.records_recorded engine.store)]
    exact .single (.failed refreshing)
  | @settle read notes changing reading nothing =>
    refine (reading.path changing).append (.single ?_)
    have refreshing : read.ledger.refreshing = true := by
      simp [ledger, isRefreshing, reading.activity_eq, changing]
    have sound : read.graph.Sound := reading.graph_eq ▸ faithful.sound
    have target : read.ledger.target = ∅ := (desired_eq_target sound).symm.trans nothing
    -- a refresh that desires nothing leaves the store alone, which writes just as much
    have written : ∀ port : PortRef, read.ledger.records[port]? =
        read.ledger.target[port]?.or read.ledger.records[port]? := by simp [target]
    rw [← ledger_remember] at refreshing written ⊢
    exact .committed refreshing reading.reconciled_eq written
  | @propose read notes changing reading something =>
    have start := reading.path changing
    have after : (read.remember.attempt read.desired 1).ledger = read.ledger := by
      simp [ledger, isRefreshing, reading.activity_eq, changing, attempt, remember,
        LinkGraph.table_spanningForest]
    rw [after]
    exact start
  | @commit desired number due outcome committing elapsed ok =>
    have refreshing : engine.ledger.refreshing = true := by
      simp [ledger, isRefreshing, committing]
    obtain ⟨target, reconciled⟩ :=
      faithful.proposed desired (by simp [Engine.proposal, committing])
    have written := LawfulStore.writes_of_ok ok
    rw [target] at written ⊢
    exact .single (.committed refreshing reconciled written)
  | @pause desired number due error committing elapsed failed again =>
    have path := path_failed committing failed faithful
    simpa [ledger, isRefreshing, committing] using path
  | @giveUp desired number due error committing elapsed failed final =>
    have refreshing : engine.ledger.refreshing = true := by
      simp [ledger, isRefreshing, committing]
    exact (path_failed committing failed faithful).concat (.failed refreshing)

end Engine

namespace World

variable {σ : Type} [StatusStore σ] [LawfulStore σ] {before after : World σ}

/-- The log leads to the ledger of the engine. -/
structure Booked (first : Ledger) (world : World σ) : Prop where
  faithful : world.engine.Faithful
  path : Ledger.Path first world.log world.engine.ledger

theorem Turn.faithful {allowed : (σ → σ) → Prop} (turn : Turn allowed before after)
    (faithful : before.engine.Faithful) : after.engine.Faithful := by
  cases turn with
  | work move => exact move.faithful faithful
  | halt => exact ⟨faithful.sound, nofun⟩
  | accept | aside | beside => exact ⟨faithful.sound, faithful.proposed⟩
  | inspect =>
    refine ⟨faithful.sound.spanningForest, ?_⟩
    rw [Engine.ledger_remember]
    exact faithful.proposed

theorem faithful_start (settings : Settings) (policy : RetryPolicy) (store : σ) (clock : Nat) :
    (start settings policy store clock).engine.Faithful :=
  ⟨LinkGraph.sound_empty, nofun⟩

theorem faithful_run (settings : Settings) (policy : RetryPolicy) (store : σ) (clock : Nat)
    (acts : List (Act σ)) : ((start settings policy store clock).run acts).engine.Faithful :=
  run_induction_any (motive := fun world => world.engine.Faithful) acts (faithful_start ..)
    Turn.faithful

/-- What a turn notes leads to the ledger after it. -/
theorem Turn.path (turn : Turn KeepsRecords before after) (faithful : before.engine.Faithful) :
    ∃ notes, after.log = before.log ++ notes ∧
      Ledger.Path before.engine.ledger notes after.engine.ledger := by
  cases turn with
  | work move => exact ⟨_, rfl, move.path faithful⟩
  | accept input => exact ⟨_, rfl, .single (.accepted input)⟩
  | halt can =>
    have resting := Engine.isRefreshing_of_canHalt can
    refine ⟨[], (List.append_nil _).symm, .of_eq ?_⟩
    simp only [Engine.ledger, resting]
    rfl
  | inspect => exact ⟨[], (List.append_nil _).symm, .of_eq Engine.ledger_remember.symm⟩
  | beside may =>
    exact ⟨[], (List.append_nil _).symm, .of_eq (Engine.ledger_beside may).symm⟩
  | aside => exact ⟨[], (List.append_nil _).symm, .nil⟩

theorem Turn.booked {first : Ledger} (turn : Turn KeepsRecords before after)
    (booked : before.Booked first) : after.Booked first := by
  obtain ⟨notes, log, path⟩ := turn.path booked.faithful
  exact ⟨turn.faithful booked.faithful, log ▸ booked.path.append path⟩

/-- Over a store that only the engine writes, what a run notes leads to the ledger
after it. -/
theorem path_run {world : World σ} {acts : List (Act σ)} (faithful : world.engine.Faithful)
    (sole : SoleWriter acts) :
    (world.run acts).engine.Faithful ∧ ∃ notes, (world.run acts).log = world.log ++ notes ∧
      Ledger.Path world.engine.ledger notes (world.run acts).engine.ledger := by
  refine run_induction (motive := fun after => after.engine.Faithful ∧ ∃ notes,
    after.log = world.log ++ notes ∧ Ledger.Path world.engine.ledger notes after.engine.ledger)
    sole ⟨faithful, [], (List.append_nil _).symm, .nil⟩ ?_
  rintro before after turn ⟨faithful, notes, log, path⟩
  obtain ⟨more, log', path'⟩ := turn.path faithful
  exact ⟨turn.faithful faithful, notes ++ more, by rw [log', log, List.append_assoc],
    path.append path'⟩

/-- Over a store that only the engine writes, the log of every run leads from
the first records to the ledger of the engine. -/
theorem booked_run (settings : Settings) (policy : RetryPolicy) (store : σ) (clock : Nat)
    {acts : List (Act σ)} (sole : SoleWriter acts) :
    ((start settings policy store clock).run acts).Booked { records := records store } := by
  obtain ⟨faithful, notes, log, path⟩ :=
    path_run (faithful_start settings policy store clock) sole
  have all : ((start settings policy store clock).run acts).log = notes := log
  exact ⟨faithful, all ▸ path⟩

end World

end LoopGuard
