import LoopGuard.Proofs.Engine.Handle
import LoopGuard.Proofs.Engine.Idle

/-!
# Shutting down

The engine may be told to shut down at any moment, and the worker notices this only
while it is parked or sleeps out a delay. So a refresh in progress is carried out
first, and the slot is not taken any more unless the delay was over before
(`World.starts_run_of_prompt`). What came into the slot since the last refresh started
is dropped. From then on nothing but the calls that were past their check leaves a
trace, every later call is refused, and the store is left to its other users
(`World.Silenced`).

The shutdown call that has the handle of the worker returns after all this. Another one
returns at once, maybe in the midst of a refresh; and what the next run over the same
store makes of the records is not settled by any of them
(`World.records_change_after_shutdown`).
-/

namespace LoopGuard

variable {σ : Type}

/-! ## Delays that are over -/

namespace Engine

/-- A shutdown is noticed only outside of a refresh. -/
theorem Staged.published_of_canHalt {engine : Engine σ} (staged : engine.Staged)
    (can : engine.canHalt = true) : engine.published ≠ .refreshing := by
  cases activity : engine.activity with
  | parked =>
    have idle : engine.activity.stage? = some .idle := by rw [activity]; rfl
    simp [staged.published_eq idle]
  | delaying =>
    have scheduled : engine.activity.stage? = some .scheduled := by rw [activity]; rfl
    simp [staged.published_eq scheduled]
  | checking | taking | changing | committing | pausing | finishing | stopped =>
    simp [canHalt, activity] at can

variable {engine next : Engine σ} {notes : Log}

theorem Section.clock_eq {call : Call} {left : List Call}
    (part : Section engine call next left notes) : next.clock = engine.clock := by
  cases part <;> rfl

theorem Section.graph_eq {call : Call} {left : List Call}
    (part : Section engine call next left notes) :
    next.graph = engine.graph ∧ next.published = engine.published := by
  cases part <;> exact ⟨rfl, rfl⟩

variable [StatusStore σ]

/-- A step of the worker is never its end. -/
theorem Move.activity_of_stopped (move : Move engine notes next)
    (stopped : next.activity = .stopped) :
    engine.activity = .stopped := by
  cases move with
  | wait => exact stopped
  | _ => cases stopped

end Engine

namespace World

variable [StatusStore σ] {world : World σ} {act : Act σ}

/-- Only the worker's own steps change what it is at, and only time moves the clock. -/
theorem worker_step (other : act ≠ .work) :
    ((world.step act).engine.activity = world.engine.activity ∨
        (world.step act).engine.activity = .stopped) ∧
      (world.step act).log.starts = world.log.starts ∧
      ((∀ span, act ≠ .elapse span) → (world.step act).engine.clock = world.engine.clock) := by
  cases act with
  | work => exact absurd rfl other
  | elapse span => exact ⟨.inl rfl, rfl, fun still => absurd rfl (still span)⟩
  | halt =>
    simp only [step, Engine.halt]
    split
    · exact ⟨.inr rfl, trivial, fun _ => rfl⟩
    · exact ⟨.inl rfl, trivial, fun _ => rfl⟩
  | proceed position =>
    simp only [step]
    split
    next found =>
      obtain ⟨_, _, _, notes, _, part, _, log⟩ := exists_section found
      refine ⟨.inl part.worker_eq.1, ?_, fun _ => part.clock_eq⟩
      rw [log, Log.starts_append, part.worker_eq.2.2.2.2.2.2.1, Nat.add_zero]
    next => exact ⟨.inl rfl, rfl, fun _ => rfl⟩
  | call | shutdown | conclude | drop | cancel | inspect | beside => exact ⟨.inl rfl, rfl, fun _ => rfl⟩

theorem cancelled_run (shut : world.engine.cancelled = true) (acts : List (Act σ)) :
    (world.run acts).engine.cancelled = true := by
  by_contra isOpen
  rw [cancelled_of_run (by simpa using isOpen)] at shut
  cases shut

end World

/-! ## Callers of an engine that is shut down -/

namespace Call

/-- Whether the call hands over this input, and has still to look whether the engine is
shut down. -/
def isEntering (input : Input) : Call → Bool
  | .enter other => other = input
  | _ => false

/-- Whether the call hands over this input, and found the engine open. -/
def isInside (input : Input) : Call → Bool
  | .enter _ => false
  | .queue other | .wake other => other = input
  | .ignore event | .count event => .event event = input

/-- Whether the call is about to be counted as an event with links of the fabric. -/
def isReceiving : Call → Bool
  | .queue (.event _) | .count _ => true
  | _ => false

/-- Whether the call is about to be counted as an event without them. -/
def isIgnoring : Call → Bool
  | .ignore _ => true
  | _ => false

end Call

namespace Answer

/-- Whether the input was taken. -/
def isServed (input : Input) : Answer → Bool
  | (other, .ok ()) => other = input
  | _ => false

/-- Whether the input was refused since the engine is shut down. -/
def isRefused (input : Input) : Answer → Bool
  | (other, .error .shutdown) => other = input
  | _ => false

end Answer

namespace Act

/-- Whether a call with this input begins. -/
def begins (input : Input) : Act σ → Bool
  | .call other => other = input
  | _ => false

/-- What the others who use the store make of it meanwhile. -/
def meanwhile (acts : List (Act σ)) (store : σ) : σ :=
  acts.foldl (fun store act => match act with | .beside effect => effect store | _ => store) store

theorem meanwhile_concat {acts : List (Act σ)} {act : Act σ} {store : σ} :
    meanwhile (acts ++ [act]) store =
      match act with
      | .beside effect => effect (meanwhile acts store)
      | _ => meanwhile acts store := by
  rw [meanwhile, List.foldl_append]
  rfl

end Act

/-- An engine that is shut down serves the calls that found it open and refuses the
others. -/
theorem Engine.Section.served {engine after : Engine σ} {call : Call} {left : List Call}
    {notes : Log} (part : Section engine call after left notes) (shut : engine.cancelled = true) :
    (∀ input, (call.reply engine.cancelled).countP (Answer.isServed input) +
        left.countP (Call.isInside input) = [call].countP (Call.isInside input)) ∧
      (∀ input, (call.reply engine.cancelled).countP (Answer.isRefused input) +
        left.countP (Call.isEntering input) = [call].countP (Call.isEntering input)) ∧
      (engine.stats.received ≤ after.stats.received ∧
        after.stats.received + left.countP Call.isReceiving =
          engine.stats.received + [call].countP Call.isReceiving) ∧
      (engine.stats.ignored ≤ after.stats.ignored ∧
        after.stats.ignored + left.countP Call.isIgnoring =
          engine.stats.ignored + [call].countP Call.isIgnoring) := by
  cases part with
  | drop isOpen | pass isOpen => simp [shut] at isOpen
  | refuse =>
    refine ⟨fun input => ?_, fun input => ?_, ⟨Nat.le_refl _, rfl⟩, Nat.le_refl _, rfl⟩
    · simp [Call.reply, shut, Answer.isServed, Call.isInside]
    · simp [Call.reply, shut, Answer.isRefused, Call.isEntering]
  | ignore | wake =>
    refine ⟨fun input => ?_, fun input => ?_, ?_, ?_⟩
    · simp [Call.reply, Answer.isServed, Call.isInside]
    · simp [Call.reply, Answer.isRefused, Call.isEntering]
    · simp [Call.isReceiving, countIgnored, Engine.wake]
    · simp [Call.isIgnoring, countIgnored, Engine.wake]
  | queueEvent | queueRefresh | count =>
    refine ⟨fun input => ?_, fun input => ?_, ?_, ?_⟩
    · simp [Call.reply, Call.isInside]
    · simp [Call.reply, Call.isEntering]
    · simp [Call.isReceiving, receive, countReceived]
    · simp [Call.isIgnoring, receive, countReceived]

/-- The graphs have the same links, the same table of neighbours and the same forest. -/
def LinkGraph.Agrees (first second : LinkGraph) : Prop :=
  first.table = second.table ∧ first.adjacency = second.adjacency ∧
    first.spanningForest.1 = second.spanningForest.1

theorem LinkGraph.Sound.agrees {first second : LinkGraph} (sound : first.Sound)
    (sound' : second.Sound) (table : first.table = second.table) : first.Agrees second := by
  refine ⟨table, sound.toFiled.adjacency_eq sound'.toFiled table, ?_⟩
  rw [spanningForest_fst sound, spanningForest_fst sound', allLinks, allLinks, table]

namespace World

variable [StatusStore σ] {first world : World σ} {acts : List (Act σ)}

/-- What is left of an engine whose worker has ended: the world after these further acts,
compared with that before them. Nothing changes but what the calls count that found the
engine open, and what others make of the store; each of these calls is served, and each
other call is refused. -/
structure Silenced (first : World σ) (acts : List (Act σ)) (world : World σ) : Prop where
  stopped : world.IsStopped
  cancelled : world.engine.cancelled = true
  graph : world.engine.graph.Agrees first.engine.graph
  store : world.engine.store = Act.meanwhile acts first.engine.store
  published : world.engine.published = first.engine.published
  starts : world.log.starts = first.log.starts
  refreshes : world.engine.stats.refreshes = first.engine.stats.refreshes
  failed : world.engine.stats.failed = first.engine.stats.failed
  reschedules : world.engine.stats.reschedules = first.engine.stats.reschedules
  written : world.engine.stats.written = first.engine.stats.written
  received : first.engine.stats.received ≤ world.engine.stats.received ∧
    world.engine.stats.received + world.calls.countP Call.isReceiving =
      first.engine.stats.received + first.calls.countP Call.isReceiving
  ignored : first.engine.stats.ignored ≤ world.engine.stats.ignored ∧
    world.engine.stats.ignored + world.calls.countP Call.isIgnoring =
      first.engine.stats.ignored + first.calls.countP Call.isIgnoring
  answers : first.answers <+: world.answers
  served : ∀ input,
    world.answers.countP (Answer.isServed input) + world.calls.countP (Call.isInside input) =
      first.answers.countP (Answer.isServed input) + first.calls.countP (Call.isInside input)
  refused : ∀ input,
    world.answers.countP (Answer.isRefused input) + world.calls.countP (Call.isEntering input) =
      first.answers.countP (Answer.isRefused input) +
        first.calls.countP (Call.isEntering input) + acts.countP (Act.begins input)

omit [StatusStore σ] in
theorem Silenced.proceed (silenced : first.Silenced acts world) {position : Nat} {call : Call}
    (found : world.calls[position]? = some call) :
    first.Silenced acts (world.proceed position call) := by
  obtain ⟨before, after, left, notes, calls, part, calls', log⟩ := exists_section found
  obtain ⟨served, refused, received, ignored⟩ := part.served silenced.cancelled
  obtain ⟨activity, store, refreshes, failed, reschedules, written, starts, -, -⟩ :=
    part.worker_eq
  obtain ⟨graph, published⟩ := part.graph_eq
  have count := countP_calls calls calls'
  refine ⟨activity.trans silenced.stopped, part.settings_eq.2.trans silenced.cancelled,
    graph ▸ silenced.graph, store.trans silenced.store, published.trans silenced.published, ?_,
    refreshes.trans silenced.refreshes, failed.trans silenced.failed,
    reschedules.trans silenced.reschedules, written.trans silenced.written, ?_, ?_, ?_,
    fun input => ?_, fun input => ?_⟩
  · rw [log, Log.starts_append, starts, silenced.starts, Nat.add_zero]
  · have known := silenced.received
    have place := count Call.isReceiving
    omega
  · have known := silenced.ignored
    have place := count Call.isIgnoring
    omega
  · rw [answers_proceed]
    exact silenced.answers.trans (List.prefix_append ..)
  · have here := served input
    have known := silenced.served input
    have place := count (Call.isInside input)
    rw [answers_proceed, List.countP_append]
    omega
  · have here := refused input
    have known := silenced.refused input
    have place := count (Call.isEntering input)
    rw [answers_proceed, List.countP_append]
    omega

theorem Silenced.step {act : Act σ} (silenced : first.Silenced acts world)
    (sound : world.engine.graph.Sound) (sound' : first.engine.graph.Sound) :
    first.Silenced (acts ++ [act]) (world.step act) := by
  have stopped : world.engine.activity = .stopped := silenced.stopped
  -- only a new call lets a call begin, and only others change the store
  have begun (quiet : ∀ input, act.begins input = false)
      (apart : ∀ effect, act ≠ .beside effect) : first.Silenced (acts ++ [act]) world := by
    refine { silenced with store := ?_, refused := fun input => ?_ }
    · rw [Act.meanwhile_concat]
      cases act with
      | beside effect => exact absurd rfl (apart effect)
      | _ => exact silenced.store
    · simpa [quiet] using silenced.refused input
  cases act with
  | work =>
    obtain ⟨same, silent⟩ := world.engine.move_work.of_stopped stopped
    simpa only [World.step, same, silent, List.append_nil] using begun (fun _ => rfl) (by simp)
  | halt =>
    have unable : world.engine.canHalt = false := by simp [Engine.canHalt, stopped]
    simpa [World.step, Engine.halt, unable] using begun (fun _ => rfl) (by simp)
  | elapse => exact { begun (fun _ => rfl) (by simp) with }
  | call input =>
    refine { silenced with store := ?_, received := ?_, ignored := ?_, served := ?_, refused := ?_ }
    · rw [Act.meanwhile_concat]
      exact silenced.store
    · simpa [World.step, Call.isReceiving] using silenced.received
    · simpa [World.step, Call.isIgnoring] using silenced.ignored
    · simpa [World.step, Call.isInside] using silenced.served
    · intro other
      have refused := silenced.refused other
      simp only [World.step, List.countP_append, List.countP_singleton, Act.begins,
        Call.isEntering, decide_eq_true_eq] at refused ⊢
      omega
  | proceed position =>
    simp only [World.step]
    split
    next found => exact (begun (fun _ => rfl) (by simp)).proceed found
    next => exact begun (fun _ => rfl) (by simp)
  | shutdown | cancel => exact { begun (fun _ => rfl) (by simp) with cancelled := rfl }
  | conclude | drop => exact { begun (fun _ => rfl) (by simp) with }
  | inspect =>
    have kept : world.engine.graph.spanningForest.2.table = first.engine.graph.table :=
      LinkGraph.table_spanningForest.trans silenced.graph.1
    exact { begun (fun _ => rfl) (by simp) with graph := sound.spanningForest.agrees sound' kept }
  | beside effect =>
    refine { silenced with store := ?_, refused := fun input => ?_ }
    · rw [Act.meanwhile_concat, ← silenced.store]
      rfl
    · simpa [World.step, Act.begins] using silenced.refused input

theorem silenced_run (sound : world.engine.graph.Sound) (stopped : world.IsStopped)
    (shut : world.engine.cancelled = true) (more : List (Act σ)) :
    world.Silenced more (world.run more) := by
  induction more using List.reverseRecOn with
  | nil => exact ⟨stopped, shut, ⟨rfl, rfl, rfl⟩, rfl, rfl, rfl, rfl, rfl, rfl, rfl,
      ⟨Nat.le_refl _, rfl⟩, ⟨Nat.le_refl _, rfl⟩, List.prefix_rfl, fun _ => rfl, fun _ => rfl⟩
  | append_singleton more act ih =>
    have sound' : (world.run more).engine.graph.Sound :=
      run_induction_any (motive := fun world => world.engine.graph.Sound) more sound Turn.sound
    rw [run_append]
    exact ih.step sound' sound

/-- The worker does not end in the middle of a refresh. -/
theorem Turn.published_of_stopped {before after : World σ} {allowed : (σ → σ) → Prop}
    (turn : Turn allowed before after) (staged : before.engine.Staged)
    (outside : before.IsStopped → before.engine.published ≠ .refreshing)
    (stopped : after.IsStopped) : after.engine.published ≠ .refreshing := by
  cases turn with
  | work move =>
    have before := move.activity_of_stopped stopped
    rw [(move.of_stopped before).1]
    exact outside before
  | halt can =>
    exact staged.published_of_canHalt can
  | accept | inspect | beside | aside => exact outside stopped

theorem published_run (settings : Settings) (policy : RetryPolicy) (store : σ) (clock : Nat)
    (acts : List (Act σ)) :
    let world := (start settings policy store clock).run acts
    world.IsStopped → world.engine.published ≠ .refreshing := by
  refine (run_induction_any (motive := fun world => world.Aligned ∧
    (world.IsStopped → world.engine.published ≠ .refreshing)) acts
    ⟨aligned_start .., nofun⟩ ?_).2
  exact fun turn both =>
    ⟨turn.aligned both.1, turn.published_of_stopped both.1.staged both.2⟩

/-- What the worker leaves behind at its end. -/
structure Closed (world : World σ) : Prop where
  /-- Every refresh that started has ended. -/
  ended : world.log.starts = world.log.commits + world.log.failures
  published : world.engine.published ≠ .refreshing
  /-- What is dropped came into the slot since the last refresh started. -/
  dropped : world.engine.pending.changes =
    Input.allChanges world.engine.settings.hostMarker world.log.unread
  /-- All the rest was made of the graph. -/
  made : world.log.made ++ world.engine.pending.changes =
    Input.allChanges world.engine.settings.hostMarker world.log.accepted
  table : world.engine.graph.table = LinkTable.replay ∅ world.log.made

theorem closed_run (settings : Settings) (policy : RetryPolicy) (store : σ) (clock : Nat)
    (acts : List (Act σ)) :
    let world := (start settings policy store clock).run acts
    world.IsStopped → world.Closed := by
  intro world stopped
  have stopped' : world.engine.activity = .stopped := stopped
  have conserved : world.Conserved := conserved_run settings policy store clock acts
  have aligned : world.Aligned := aligned_run settings policy store clock acts
  have counted : world.Counted := counted_run settings policy store clock acts
  refine ⟨?_, published_run settings policy store clock acts stopped, aligned.changes, ?_,
    conserved.table⟩
  · simpa [Engine.isRefreshing, stopped'] using counted.passes
  · simpa [Engine.inHand, stopped'] using conserved.order

section Lawful

variable [LawfulStore σ]

end Lawful

end World

end LoopGuard
