import LoopGuard.Proofs.Engine.Step
import LoopGuard.Proofs.Topology.Graph
import LoopGuard.Store.Memory

/-!
# Changes arrive once and in order

The changes that inputs ask for move from the slot into the worker's hand and
from there into the graph. No step of a call or of the worker drops one, makes
one twice or lets one overtake another: what is made, what is in hand and what
waits, put together, is what the accepted inputs ask for (`World.Conserved`). A
refresh that fails makes no difference to this.
-/

namespace LoopGuard

variable {σ : Type}

/-- The changes that the refresh in progress has still to make. -/
def Engine.inHand (engine : Engine σ) : List LinkChange :=
  match engine.activity with
  | .changing changes => changes
  | _ => []

/-- The changes that the inputs ask for, in order. -/
def Input.allChanges (marker : String) (inputs : List Input) : List LinkChange :=
  inputs.flatMap (Input.changes marker)

theorem Engine.inHand_of_canHalt {engine : Engine σ} (can : engine.canHalt = true) :
    engine.inHand = [] := by
  unfold canHalt at can
  cases activity : engine.activity <;> simp_all [inHand]

namespace Engine

variable [StatusStore σ] {engine next : Engine σ} {notes : Log}

theorem Move.accepted_eq (move : Move engine notes next) : Log.accepted notes = [] := by
  cases move with
  | settle _ reading => simpa using reading.notes_eq.1
  | propose _ reading => exact reading.notes_eq.1
  | _ => rfl

theorem Move.settings_eq (move : Move engine notes next) : next.settings = engine.settings := by
  cases move with
  | settle _ reading => exact reading.pending_eq.2
  | propose _ reading => exact reading.pending_eq.2
  | _ => rfl

/-- A step either takes the slot into an empty hand, or moves changes from the
hand into the graph and leaves the slot alone. -/
theorem Move.hand (move : Move engine notes next) :
    (Log.starts notes = 1 ∧ Log.made notes = [] ∧ engine.inHand = [] ∧
        next.inHand = engine.pending.changes ∧ next.pending.changes = []) ∨
      (Log.starts notes = 0 ∧ Log.made notes ++ next.inHand = engine.inHand ∧
        next.pending.changes = engine.pending.changes) := by
  cases move with
  | take taking => exact .inl ⟨rfl, rfl, by simp [inHand, taking], rfl, rfl⟩
  | settle changing reading =>
    obtain ⟨_, made, starts⟩ := reading.notes_eq
    refine .inr ⟨by simp [starts], ?_, congrArg _ reading.pending_eq.1⟩
    simp [made, inHand, changing, succeed]
  | propose changing reading =>
    obtain ⟨_, made, starts⟩ := reading.notes_eq
    refine .inr ⟨starts, ?_, congrArg _ reading.pending_eq.1⟩
    simp [made, inHand, changing, attempt]
  | wait => exact .inr ⟨rfl, rfl, rfl⟩
  | woken activity | park activity | schedule activity | pushBack activity | ready activity
  | change activity | unread activity | commit activity | pause activity | giveUp activity
  | retry activity | again activity | rest activity =>
    refine .inr ⟨rfl, ?_, rfl⟩
    simp [Log.made, inHand, activity, delay, Engine.change, fail, succeed, attempt]

/-- The graph takes in just the changes that are made. -/
theorem Move.table_eq (move : Move engine notes next) :
    next.graph.table = engine.graph.table.replay (Log.made notes) := by
  cases move with
  | change => exact LinkChange.table_apply _
  | settle _ reading =>
    rw [Log.made_append, reading.notes_eq.2.1, ← reading.graph_eq]
    exact LinkGraph.table_spanningForest
  | propose _ reading =>
    rw [reading.notes_eq.2.1, ← reading.graph_eq]
    exact LinkGraph.table_spanningForest
  | _ => rfl

end Engine

namespace World

variable [StatusStore σ] {before after : World σ} {allowed : (σ → σ) → Prop}

theorem Turn.settings_eq (turn : Turn allowed before after) :
    after.engine.settings = before.engine.settings := by
  cases turn with
  | work move => exact move.settings_eq
  | _ => rfl

/-- What the inputs ask for is made, in hand, or waiting, and the graph is what
was made of it. -/
structure Conserved (world : World σ) : Prop where
  order : world.log.made ++ world.engine.inHand ++ world.engine.pending.changes =
    Input.allChanges world.engine.settings.hostMarker world.log.accepted
  table : world.engine.graph.table = LinkTable.replay ∅ world.log.made

omit [StatusStore σ] in
theorem conserved_start (settings : Settings) (policy : RetryPolicy) (store : σ) (clock : Nat) :
    (start settings policy store clock).Conserved :=
  ⟨rfl, rfl⟩

theorem Turn.conserved (turn : Turn allowed before after) (conserved : before.Conserved) :
    after.Conserved := by
  cases turn with
  | work move =>
    constructor
    · simp only [Log.accepted_append, Log.made_append, move.accepted_eq, move.settings_eq,
        List.append_nil, ← conserved.order]
      rcases move.hand with ⟨_, made, empty, hand, slot⟩ | ⟨_, hand, slot⟩
      · simp [made, empty, hand, slot]
      · simp [← hand, slot]
    · simp only [Log.made_append, LinkTable.replay_append, ← conserved.table]
      exact move.table_eq
  | halt can =>
    refine ⟨?_, conserved.table⟩
    have order := conserved.order
    rw [Engine.inHand_of_canHalt can] at order
    exact order
  | accept input calls =>
    constructor
    · have order := congrArg (· ++ input.changes before.engine.settings.hostMarker) conserved.order
      simpa [Input.allChanges, Engine.receive, Pending.markQueued, Engine.inHand] using order
    · simpa [Engine.receive] using conserved.table
  | inspect =>
    exact ⟨conserved.order, LinkGraph.table_spanningForest.trans conserved.table⟩
  | beside => exact ⟨conserved.order, conserved.table⟩
  | aside => exact ⟨conserved.order, conserved.table⟩

theorem conserved_run (settings : Settings) (policy : RetryPolicy) (store : σ) (clock : Nat)
    (acts : List (Act σ)) : ((start settings policy store clock).run acts).Conserved :=
  run_induction_any acts (conserved_start settings policy store clock) Turn.conserved

theorem settings_run (world : World σ) (acts : List (Act σ)) :
    (world.run acts).engine.settings = world.engine.settings :=
  run_induction_any (motive := fun after => after.engine.settings = world.engine.settings) acts rfl
    fun turn same => turn.settings_eq.trans same

/-! ## Refreshes take everything -/

/-- The changes that were taken from the slot. -/
def handed (world : World σ) : List LinkChange := world.log.made ++ world.engine.inHand

/-- Changes are taken only when a refresh starts, and stay taken. -/
theorem Turn.handed (turn : Turn allowed before after) :
    before.handed <+: after.handed ∧ before.log.starts ≤ after.log.starts ∧
      (after.log.starts = before.log.starts → after.handed = before.handed) := by
  cases turn with
  | work move =>
    simp only [World.handed, Log.made_append, Log.starts_append, List.append_assoc]
    rcases move.hand with ⟨starts, made, empty, hand, _⟩ | ⟨starts, hand, _⟩
    · refine ⟨?_, by omega, fun same => by omega⟩
      simp [made, empty]
    · simp [hand]
  | halt can =>
    rw [World.handed, World.handed, Engine.inHand_of_canHalt can]
    exact ⟨List.prefix_rfl, Nat.le_refl _, fun _ => rfl⟩
  | accept => simp [World.handed, Engine.inHand, Engine.receive]
  | inspect => simp [World.handed, Engine.inHand, Engine.remember]
  | beside => simp [World.handed, Engine.inHand]
  | aside => simp [World.handed, Engine.inHand]

/-- As long as no further refresh starts, no further change is taken. -/
theorem handed_run (world : World σ) (acts : List (Act σ)) :
    world.handed <+: (world.run acts).handed ∧ world.log.starts ≤ (world.run acts).log.starts ∧
      ((world.run acts).log.starts = world.log.starts →
        (world.run acts).handed = world.handed) := by
  refine run_induction_any (motive := fun after => world.handed <+: after.handed ∧
    world.log.starts ≤ after.log.starts ∧
      (after.log.starts = world.log.starts → after.handed = world.handed)) acts
    ⟨List.prefix_rfl, Nat.le_refl _, fun _ => rfl⟩ fun turn ih => ?_
  obtain ⟨sub, later, same⟩ := ih
  obtain ⟨sub', later', same'⟩ := turn.handed
  refine ⟨sub.trans sub', by omega, fun starts => ?_⟩
  rw [same' (by omega), same (by omega)]

/-- The start of a refresh takes all that waits. -/
theorem handed_step_taking {world : World σ} (taking : world.engine.activity = .taking)
    (conserved : world.Conserved) :
    (world.step .work).handed =
        Input.allChanges world.engine.settings.hostMarker world.log.accepted ∧
      (world.step .work).log.starts = world.log.starts + 1 := by
  have work : world.engine.work = world.engine.take := by simp only [Engine.work, taking]
  have notes : world.engine.workNotes = [.took] := by simp only [Engine.workNotes, taking]
  have empty : world.engine.inHand = [] := by simp [Engine.inHand, taking]
  rw [← conserved.order, empty]
  simp [World.handed, step, work, notes, Engine.inHand, Engine.take, Engine.enter]

end World

end LoopGuard
