import LoopGuard.Proofs.Engine.Schedule
import LoopGuard.Proofs.Feed.Fed
import LoopGuard.Proofs.Topology.Patch

/-!
# Feed and engine converge

A feed that is the only source of link events tells the engine how each table
that it reads differs from the one before. The changes that came into the slot or
are on their way there then always lead from no links to the fabric of the table
seen last (`Fed.Aligned`), whatever polls and refreshes come to; so an engine at
rest has this fabric and records its statuses.
-/

namespace LoopGuard

variable {σ : Type}

namespace Fed

variable [StatusStore σ]

/-- The links of the fabric in the table seen last. -/
def fabric (fed : Fed σ) : LinkTable :=
  fed.feed.last.fabric fed.world.engine.settings.hostMarker

/-- Only the feed reports events, its tables are such as are fetched, and only the
engine writes to the store. -/
structure Lone [LawfulStore σ] (acts : List (FedAct σ)) : Prop where
  silent (event : LinkEvent) : FedAct.act (.call (.event event)) ∉ acts
  keyed (table : LinkTable) : FedAct.poll (.ok table) ∈ acts → table.Keyed
  sole (effect : σ → σ) : FedAct.act (.beside effect) ∈ acts → KeepsRecords effect

/-- The feed has told everything that it has seen, and told it rightly. -/
structure Aligned (fed : Fed σ) : Prop where
  keyed : fed.feed.last.Keyed
  single : fed.world.reports ≤ 1
  replayed : LinkTable.replay ∅ fed.world.history = fed.fabric
  reported : Reports Eq ∅ fed.world.history

variable {fed : Fed σ} {act : FedAct σ} {acts : List (FedAct σ)} {current : LinkTable}

omit [StatusStore σ] in
theorem aligned_start (feed : LinkFeed) (settings : Settings) (policy : RetryPolicy) (store : σ)
    (clock : Nat) : (start feed settings policy store clock).Aligned where
  keyed := LinkTable.keyed_empty
  single := Nat.zero_le _
  replayed := by
    refine Std.ExtTreeMap.ext_getElem? fun id => ?_
    rw [fabric, LinkTable.getElem?_fabric]
    simp [World.history, World.owed, World.start, start, Input.allChanges, Log.accepted,
      LinkTable.replay]
  reported := trivial

/-- What the feed begins to report leads on to the fabric of the new table. -/
theorem Aligned.learn (aligned : fed.Aligned) (idle : fed.world.reports = 0)
    (keyed : current.Keyed) : (fed.learn current).Aligned := by
  let event := fed.feed.last.changes current
  let marker := fed.world.engine.settings.hostMarker
  have patch : fed.fabric.replay (event.withoutHostLinks marker).changes = current.fabric marker :=
    LinkTable.replay_changes_fabric aligned.keyed keyed
  have reports : Reports Eq fed.fabric (event.withoutHostLinks marker).changes :=
    LinkTable.reports_changes_fabric aligned.keyed
  have learned : fed.learn current =
      { feed := { fed.feed with last := current }
        world := if event.isEmpty then fed.world else fed.world.step (.call (.event event)) } := rfl
  by_cases empty : event.isEmpty = true
  · have nothing : (event.withoutHostLinks marker).changes = [] := by
      simp only [LinkEvent.isEmpty, Bool.and_eq_true, List.isEmpty_iff] at empty
      simp [LinkEvent.withoutHostLinks, LinkEvent.changes, empty]
    rw [nothing] at patch
    rw [learned, if_pos empty]
    exact ⟨keyed, aligned.single, aligned.replayed.trans patch, aligned.reported⟩
  · obtain ⟨history, count⟩ : (fed.world.step (.call (.event event))).history =
          fed.world.history ++ (event.withoutHostLinks marker).changes ∧
        (fed.world.step (.call (.event event))).reports = fed.world.reports + 1 :=
      World.history_step_report
    rw [learned, if_neg empty]
    refine ⟨keyed, ?_, ?_, ?_⟩
    · simp only [count, idle]
      exact Nat.le_refl _
    · simp only [history, LinkTable.replay_append, aligned.replayed]
      rw [patch, fabric, World.settings_step]
    · simp only [history, reports_append, aligned.replayed]
      exact ⟨aligned.reported, reports⟩

theorem Aligned.step (aligned : fed.Aligned)
    (isOpen : (fed.step act).world.engine.cancelled = false)
    (silent : ∀ event, act ≠ .act (.call (.event event)))
    (keyed : ∀ table, act = .poll (.ok table) → table.Keyed) : (fed.step act).Aligned := by
  cases act with
  | poll outcome =>
    cases outcome with
    | error => exact aligned
    | ok current =>
      simp only [Fed.step]
      split
      next idle => exact aligned.learn idle (keyed current rfl)
      next => exact aligned
  | act act =>
    have before := World.cancelled_of_step isOpen
    obtain ⟨history, reports⟩ := World.history_step before aligned.single fun event same =>
      silent event (congrArg _ same)
    refine ⟨aligned.keyed, Nat.le_trans reports aligned.single, ?_, ?_⟩
    · simp only [Fed.step, history]
      rw [aligned.replayed, fabric, fabric, World.settings_step]
    · simp only [Fed.step, history]
      exact aligned.reported

/-- Feed and engine stay aligned as long as the engine is not shut down. -/
theorem Aligned.run (aligned : fed.Aligned) (silent : ∀ event, .act (.call (.event event)) ∉ acts)
    (keyed : ∀ table, .poll (.ok table) ∈ acts → table.Keyed)
    (isOpen : (fed.run acts).world.engine.cancelled = false) : (fed.run acts).Aligned := by
  induction acts using List.reverseRecOn with
  | nil => exact aligned
  | append_singleton acts act ih =>
    rw [run_concat] at isOpen ⊢
    have before := ih (fun event inside => silent event (List.mem_append_left _ inside))
      (fun table inside => keyed table (List.mem_append_left _ inside)) (cancelled_of_step isOpen)
    refine before.step isOpen (fun event same => silent event ?_) fun table same => keyed table ?_
    · exact same ▸ List.mem_append_right _ (List.mem_singleton_self _)
    · exact same ▸ List.mem_append_right _ (List.mem_singleton_self _)

end Fed

/-- What is recorded forwarding in the end are the ports that the links forward. -/
theorem outcome_eq_forwarding_iff {initial : StatusMap} {changes : List LinkChange}
    {port : PortRef} :
    outcome initial changes port = some .forwarding ↔
      (LinkTable.replay ∅ changes).statuses[port]? = some .forwarding := by
  rw [outcome]
  by_cases ends : Ends (LinkTable.replay ∅ changes).links port
  · rw [if_pos ends]
  · have nothing : (LinkTable.replay ∅ changes).statuses[port]? = none := by
      rw [LinkTable.statuses, StatusMap.getElem?_resolve, if_neg ends]
    rw [if_neg ends, nothing]
    by_cases owed : Named changes port ∨ initial[port]? = some .forwarding
    · simp [owed]
    · rw [if_neg owed]
      simp [(not_or.1 owed).2]

/-- An engine at rest that has committed a refresh has the links that the inputs
ask for, and records as forwarding just the ports that these links forward. -/
theorem World.Rests.forwarding_iff [StatusStore σ] [LawfulStore σ] {settings : Settings}
    {policy : RetryPolicy} {store : σ} {clock : Nat} {acts : List (Act σ)} (sole : SoleWriter acts)
    (rests : ((start settings policy store clock).run acts).Rests) :
    let world := (start settings policy store clock).run acts
    let table := LinkTable.replay ∅ (Input.allChanges settings.hostMarker world.log.accepted)
    Reports Link.NamesEnds ∅ (Input.allChanges settings.hostMarker world.log.accepted) →
      0 < world.log.commits →
      world.engine.graph.table = table ∧
        ∀ port : PortRef, (records world.engine.store)[port]? = some .forwarding ↔
          table.statuses[port]? = some .forwarding := by
  intro world table reports committed
  have some : world.log.accepted ≠ [] := by
    intro none
    have fresh := ((paced_run settings policy store clock acts).fresh none).1
    have path := (booked_run settings policy store clock sole).path
    exact absurd (path.commits_of_fresh rfl fresh) (Nat.ne_of_gt committed)
  obtain ⟨same, recorded⟩ := rests.outcome sole reports
  refine ⟨same, fun port => ?_⟩
  rw [recorded port, if_neg some, outcome_eq_forwarding_iff]

namespace Fed

variable [StatusStore σ] [LawfulStore σ]

omit [StatusStore σ] [LawfulStore σ] in
/-- An aligned engine that makes all the changes it has still to make gets the
fabric of the table seen last. -/
theorem Aligned.table_eq {fed : Fed σ} (aligned : fed.Aligned) (conserved : fed.world.Conserved) :
    ((fed.world.engine.inHand ++ fed.world.engine.pending.changes ++ fed.world.owed).foldl
      (fun graph change => change.apply graph) fed.world.engine.graph).table = fed.fabric := by
  rw [LinkChange.table_foldl_apply, ← aligned.replayed, conserved.table,
    ← LinkTable.replay_append, ← List.append_assoc, ← List.append_assoc, conserved.order]
  rfl

/-- An aligned engine at rest that owes nothing has the fabric of the table seen
last, and its statuses. -/
theorem Aligned.rest {feed : LinkFeed} {settings : Settings} {policy : RetryPolicy} {store : σ}
    {clock : Nat} {all : List (Act σ)} (sole : SoleWriter all)
    (aligned : Aligned ⟨feed, (World.start settings policy store clock).run all⟩)
    (rests : ((World.start settings policy store clock).run all).Rests)
    (nothing : ((World.start settings policy store clock).run all).owed = [])
    (committed : 0 < ((World.start settings policy store clock).run all).log.commits) :
    let world := (World.start settings policy store clock).run all
    let fabric := feed.last.fabric settings.hostMarker
    world.engine.graph.table = fabric ∧
      ∀ port : PortRef, (records world.engine.store)[port]? = some .forwarding ↔
        fabric.statuses[port]? = some .forwarding := by
  intro world fabric
  have marker : world.engine.settings = settings := World.settings_run _ all
  have accepted : world.history =
      Input.allChanges settings.hostMarker world.log.accepted := by
    rw [World.history, nothing, List.append_nil, marker]
  have replayed : LinkTable.replay ∅ world.history = fabric := by
    rw [aligned.replayed, Fed.fabric, marker]
  have reports : Reports Link.NamesEnds ∅ world.history := aligned.reported.namesEnds
  rw [accepted] at replayed reports
  have forwarding := rests.forwarding_iff sole reports committed
  rwa [replayed] at forwarding

/-- However polls fail and succeed and refreshes are timed, the changes that the
engine has still to make, those of a report under way included, once made, give its
graph the fabric of the table seen last. An engine at rest that has committed a
refresh, with no report under way and no call about to wake it, has this fabric and
records as forwarding just the ports that it forwards. -/
theorem converges (feed : LinkFeed) (settings : Settings) (policy : RetryPolicy) (store : σ)
    (clock : Nat) (acts : List (FedAct σ)) (lone : Lone acts) :
    let fed := (start feed settings policy store clock).run acts
    let fabric := fed.feed.last.fabric settings.hostMarker
    let engine := fed.world.engine
    engine.cancelled = false →
      ((engine.inHand ++ engine.pending.changes ++ fed.world.owed).foldl
          (fun graph change => change.apply graph) engine.graph).table = fabric ∧
        (engine.isIdle = true → (∀ call ∈ fed.world.calls, call.isWaking = false) →
          fed.world.owed = [] → 0 < fed.world.log.commits →
          engine.graph.table = fabric ∧ engine.graph.allLinks = fabric.links ∧
            ∀ port : PortRef, (records engine.store)[port]? = some .forwarding ↔
              (StatusMap.resolve fabric.links (.compute fabric.links))[port]? =
                some .forwarding) := by
  intro fed fabric engine isOpen
  have aligned : fed.Aligned := (aligned_start feed settings policy store clock).run
    lone.silent lone.keyed isOpen
  obtain ⟨all, world, besides⟩ := exists_acts_run (start feed settings policy store clock) acts
  have sole : SoleWriter all := fun effect inside => lone.sole effect (besides effect inside)
  have ran : fed.world = (World.start settings policy store clock).run all := world
  clear_value fed
  obtain ⟨seen, final⟩ := fed
  subst ran
  have marker : engine.settings = settings := World.settings_run _ all
  refine ⟨?_, fun idle quiet nothing committed => ?_⟩
  · rw [aligned.table_eq (World.conserved_run settings policy store clock all), Fed.fabric, marker]
  · have rests := (World.woken_run settings policy store clock all).rests idle quiet
    obtain ⟨table, forwarding⟩ := aligned.rest sole rests nothing committed
    exact ⟨table, congrArg LinkTable.links table, forwarding⟩

/-- A triangle of three switches, with a host at the first. -/
def triangle : List Link :=
  [⟨⟨"ab"⟩, .of "A" "1", .of "B" "1"⟩, ⟨⟨"bc"⟩, .of "B" "2", .of "C" "1"⟩,
    ⟨⟨"ca"⟩, .of "C" "2", .of "A" "2"⟩, ⟨⟨"host-1"⟩, .of "A" "9", .of "H" "1"⟩]

/-- The same with another port of `B` under the first id, and without the host. -/
def replugged : List Link :=
  [⟨⟨"ab"⟩, .of "A" "1", .of "B" "3"⟩, ⟨⟨"bc"⟩, .of "B" "2", .of "C" "1"⟩,
    ⟨⟨"ca"⟩, .of "C" "2", .of "A" "2"⟩]

/-- The triangle is polled and a refresh requested, the first commit fails, and so
does a poll; then the replugged triangle is polled. -/
def replug : List (FedAct MemoryStore) :=
  .poll (.ok (.ofFirst triangle)) :: .act (.call .refresh) ::
    List.replicate 4 (.act (.proceed 0)) ++ List.replicate 20 (.act .work) ++
      List.replicate 3 (.act (.proceed 0)) ++ List.replicate 20 (.act .work) ++
    .poll (.error (.connection "")) :: .poll (.ok (.ofFirst replugged)) ::
    List.replicate 4 (.act (.proceed 0)) ++ List.replicate 20 (.act .work)

theorem replugged_triangle_settles :
    let fed := (start (.ofTopology 0 "") ⟨0, 0, "host"⟩ ⟨1, 0⟩
      (World.leftover.failNext 1 (.connection "")) 0).run replug
    Lone replug ∧ fed.world.engine.cancelled = false ∧ fed.world.engine.isIdle = true ∧
      (∀ call ∈ fed.world.calls, call.isWaking = false) ∧ fed.world.owed = [] ∧
      0 < fed.world.log.commits ∧ fed.world.engine.stats.failed = 1 ∧
      fed.world.engine.graph.allLinks = replugged ∧
      (records fed.world.engine.store)[PortRef.of "B" "3"]? = some .forwarding ∧
      (records fed.world.engine.store)[PortRef.of "B" "1"]? ≠ some .forwarding ∧
      (records fed.world.engine.store)[PortRef.of "D" "1"]? ≠ some .forwarding := by
  intro fed
  have lone : Lone replug := by
    constructor
    case silent => simp [replug]
    case keyed =>
      intro table polled
      have polls : table = .ofFirst triangle ∨ table = .ofFirst replugged := by
        simpa [replug] using polled
      rcases polls with rfl | rfl <;> exact LinkTable.keyed_ofFirst
    case sole => simp [replug]
  have isOpen : fed.world.engine.cancelled = false := by decide +kernel
  have idle : fed.world.engine.isIdle = true := by decide +kernel
  have quiet : ∀ call ∈ fed.world.calls, call.isWaking = false := by decide +kernel
  have nothing : fed.world.owed = [] := by decide +kernel
  have committed : 0 < fed.world.log.commits := by decide +kernel
  have failed : fed.world.engine.stats.failed = 1 := by decide +kernel
  obtain ⟨-, converged⟩ := converges (.ofTopology 0 "") ⟨0, 0, "host"⟩ ⟨1, 0⟩
    (World.leftover.failNext 1 (.connection "")) 0 replug lone isOpen
  obtain ⟨-, links, forwarding⟩ := converged idle quiet nothing committed
  have fabric : (fed.feed.last.fabric "host").links = replugged := by decide +kernel
  refine ⟨lone, isOpen, idle, quiet, nothing, committed, failed, links.trans fabric, ?_, ?_, ?_⟩
  · rw [forwarding]
    decide +kernel
  · rw [Ne, forwarding]
    decide +kernel
  · rw [Ne, forwarding]
    decide +kernel

end Fed

end LoopGuard
