import LoopGuard.Proofs.Engine.Booked
import LoopGuard.Proofs.Engine.Calls
import LoopGuard.Proofs.Engine.Reason

/-!
# What the counters say

Callers and the worker count what they do, each in a section of its own, and the
counters are read at any time. `World.Counted` says what each counter amounts to
at every moment: the answers that callers have got, the calls that are between
their count and their answer, and how the refreshes have ended. A refresh starts
only for inputs that came in since the one before, or because that one failed
(`Log.Justified`), which bounds their number. What has to be added up along a run
is a `World.tally`.
-/

namespace LoopGuard

/-! ## Steps of the worker -/

namespace Engine

variable {σ : Type} {engine next : Engine σ} {notes : Log}

/-- Whether the worker sleeps out the refresh delay. -/
def isDelaying (engine : Engine σ) : Bool :=
  match engine.activity with
  | .delaying .. => true
  | _ => false

/-- How often the delay in progress may still be pushed back. -/
def pushesLeft (engine : Engine σ) : Nat :=
  match engine.activity with
  | .delaying pushes _ => engine.settings.maxReschedules - pushes
  | _ => 0

variable [StatusStore σ]

theorem Reading.stats_eq {read : Engine σ} (reading : Reading engine notes read) :
    read.stats = engine.stats ∧ Log.commits notes = 0 ∧ Log.failures notes = 0 := by
  cases reading <;> exact ⟨rfl, rfl, rfl⟩

/-- What a step of the worker counts, and which refresh is in progress. -/
theorem Move.counted (move : Move engine notes next) :
    next.stats.received = engine.stats.received ∧ next.stats.ignored = engine.stats.ignored ∧
      next.stats.refreshes = engine.stats.refreshes + Log.commits notes ∧
      next.stats.failed = engine.stats.failed + Log.failures notes ∧
      Log.starts notes + engine.isRefreshing.toNat =
        Log.commits notes + Log.failures notes + next.isRefreshing.toNat := by
  cases move with
  | wait => exact ⟨rfl, rfl, rfl, rfl, by simp [Log.commits, Log.failures, Log.starts]⟩
  | settle activity reading =>
    obtain ⟨stats, commits, failures⟩ := reading.stats_eq
    simp [isRefreshing, activity, remember, succeed, stats, commits, failures,
      reading.notes_eq.2.2]
  | propose activity reading =>
    obtain ⟨stats, commits, failures⟩ := reading.stats_eq
    simp [isRefreshing, activity, remember, attempt, stats, commits, failures,
      reading.notes_eq.2.2]
  | woken activity | park activity | schedule activity | pushBack activity | ready activity
  | take activity | change activity | unread activity | commit activity | pause activity
  | giveUp activity | retry activity | again activity | rest activity =>
    simp [isRefreshing, activity, enter, delay, Engine.take, Engine.change, fail, succeed, attempt,
      Log.commits, Log.failures, Log.starts]

/-- A delay is pushed back at most so often, from when the worker sets out on it. -/
theorem Move.reschedules_le (move : Move engine notes next) :
    next.stats.reschedules + next.pushesLeft ≤
      engine.stats.reschedules + engine.pushesLeft +
        engine.settings.maxReschedules *
          if engine.isDelaying = false ∧ next.isDelaying = true then 1 else 0 := by
  cases move with
  | schedule activity | again activity =>
    simp [pushesLeft, isDelaying, delay, enter, activity]
  | pushBack activity _ _ below =>
    refine Nat.le_add_right_of_le ?_
    simp only [pushesLeft, delay, activity]
    omega
  | settle _ reading | propose _ reading =>
    refine Nat.le_add_right_of_le ?_
    simp [pushesLeft, succeed, attempt, remember, reading.stats_eq.1]
  | wait => exact Nat.le_add_right ..
  | woken | park | ready | take | change | unread | commit | pause | giveUp | retry | rest =>
    exact Nat.le_add_right_of_le (Nat.le_add_right ..)

end Engine

/-- What a step of the worker counts as written, the store in memory counts as well. -/
theorem Engine.Move.written_eq {engine next : Engine MemoryStore} {notes : Log}
    (move : Move engine notes next) :
    ∃ count, next.store.writes = engine.store.writes + count ∧
      next.stats.written = engine.stats.written + count := by
  cases move with
  | settle _ reading => cases reading <;> exact ⟨0, rfl, rfl⟩
  | propose _ reading => cases reading <;> exact ⟨0, rfl, rfl⟩
  | commit _ _ ok =>
    simp only [StatusStore.apply, MemoryStore.apply] at ok ⊢
    split at ok
    next => cases ok
    next none =>
      cases ok
      rw [none]
      exact ⟨_, rfl, rfl⟩
  | pause _ _ failed | giveUp _ _ failed =>
    simp only [StatusStore.apply, MemoryStore.apply] at failed ⊢
    split at failed
    next => exact ⟨0, rfl, rfl⟩
    next => cases failed
  | _ => exact ⟨0, rfl, rfl⟩

/-! ## Answers to callers -/

namespace Answer

/-- An event that was dropped since it has no link of the fabric. -/
def wasIgnored (marker : String) : Answer → Bool
  | (.event event, .ok ()) => (event.withoutHostLinks marker).isEmpty
  | _ => false

/-- An event with links of the fabric that was taken. -/
def wasReceived (marker : String) : Answer → Bool
  | (.event event, .ok ()) => !(event.withoutHostLinks marker).isEmpty
  | _ => false

/-- A report of an event that was not refused. -/
def isReport : Answer → Bool
  | (.event _, .ok ()) => true
  | _ => false

/-- An event or a request that came into the slot. -/
def wasAccepted (marker : String) (answer : Answer) : Bool :=
  answer.2.isOk && !answer.wasIgnored marker

/-- What was reported was either received or ignored. -/
theorem countP_isReport (marker : String) (answers : List Answer) :
    answers.countP isReport =
      answers.countP (wasReceived marker) + answers.countP (wasIgnored marker) := by
  induction answers with
  | nil => rfl
  | cons answer rest ih =>
    simp only [List.countP_cons, ih]
    rcases answer with ⟨_ | _, _ | _⟩
    · simp [isReport, wasReceived, wasIgnored]
    · rename_i event _
      by_cases hosts : (event.withoutHostLinks marker).isEmpty = true
      · simp [isReport, wasReceived, wasIgnored, hosts]; omega
      · simp [isReport, wasReceived, wasIgnored, hosts]; omega
    · simp [isReport, wasReceived, wasIgnored]
    · simp [isReport, wasReceived, wasIgnored]

end Answer

namespace Call

/-- A call is where its input belongs: events without links of the fabric apart from
the others. -/
def IsSorted (marker : String) : Call → Prop
  | .ignore event => (event.withoutHostLinks marker).isEmpty = true
  | .queue (.event event) | .count event | .wake (.event event) =>
    (event.withoutHostLinks marker).isEmpty = false
  | .enter _ | .queue .refresh | .wake .refresh => True

/-- Whether the call was counted as an event and has not returned. -/
def isCounted : Call → Bool
  | .wake (.event _) => true
  | _ => false

end Call

namespace Engine

variable {σ : Type} {engine after : Engine σ} {call : Call} {left : List Call} {notes : Log}

theorem Section.isSorted (part : Section engine call after left notes)
    (sorted : call.IsSorted engine.settings.hostMarker) :
    ∀ next ∈ left, next.IsSorted engine.settings.hostMarker := by
  cases part with
  | refuse | ignore | wake => simp
  | drop _ hosts => simpa [Call.IsSorted] using hosts
  | @pass input _ links =>
    cases input with
    | event event => simpa [Call.IsSorted] using links event rfl
    | refresh => simp [Call.IsSorted]
  | queueEvent | count => simpa [Call.IsSorted] using sorted
  | queueRefresh => simp [Call.IsSorted]

/-- What a section of a call counts. -/
theorem Section.counted (part : Section engine call after left notes)
    (sorted : call.IsSorted engine.settings.hostMarker) :
    let answers := call.reply engine.cancelled
    let marker := engine.settings.hostMarker
    after.stats.ignored = engine.stats.ignored + answers.countP (Answer.wasIgnored marker) ∧
      after.stats.received + [call].countP Call.isCounted =
        engine.stats.received + answers.countP (Answer.wasReceived marker) +
          left.countP Call.isCounted ∧
      (Log.accepted notes).length + [call].countP Call.isWaking =
        answers.countP (Answer.wasAccepted marker) + left.countP Call.isWaking := by
  cases part with
  | refuse shut =>
    simp [Call.reply, shut, Answer.wasIgnored, Answer.wasReceived, Answer.wasAccepted,
      Call.isCounted, Call.isWaking, Except.isOk, Except.toBool, Log.accepted]
  | drop isOpen | pass isOpen =>
    simp [Call.reply, isOpen, Call.isCounted, Call.isWaking, Log.accepted]
  | ignore =>
    have hosts : LinkEvent.isEmpty _ = true := sorted
    simp [Call.reply, Answer.wasIgnored, Answer.wasReceived, Answer.wasAccepted, hosts,
      Call.isCounted, Call.isWaking, countIgnored, Log.accepted]
  | queueEvent | queueRefresh =>
    simp [Call.reply, Call.isCounted, Call.isWaking, receive]
  | count =>
    simp [Call.reply, Call.isCounted, Call.isWaking, countReceived, Log.accepted]
  | @wake input =>
    cases input with
    | event event =>
      have links : LinkEvent.isEmpty _ = false := sorted
      simp [Call.reply, Answer.wasIgnored, Answer.wasReceived, Answer.wasAccepted, links,
        Call.isCounted, Call.isWaking, Engine.wake, Except.isOk, Except.toBool, Log.accepted]
    | refresh =>
      simp [Call.reply, Answer.wasIgnored, Answer.wasReceived, Answer.wasAccepted,
        Call.isCounted, Call.isWaking, Engine.wake, Except.isOk, Except.toBool, Log.accepted]

end Engine

namespace World

/-! ## What adds up along a run -/

section Tally

variable {σ : Type} [StatusStore σ]

/-- What the acts of a run gain, one after the other. -/
def tally (gain : World σ → Act σ → Nat) (world : World σ) : List (Act σ) → Nat
  | [] => 0
  | act :: rest => gain world act + tally gain (world.step act) rest

theorem tally_concat {gain : World σ → Act σ → Nat} {world : World σ} {acts : List (Act σ)}
    {act : Act σ} :
    world.tally gain (acts ++ [act]) = world.tally gain acts + gain (world.run acts) act := by
  induction acts generalizing world with
  | nil => simp [tally, run]
  | cons first rest ih =>
    rw [List.cons_append, tally, tally, ih, Nat.add_assoc]
    rfl

/-- Whether the worker sets out on a delay in this act, other than by pushing one
back. -/
def delaysBegun (world : World σ) (act : Act σ) : Nat :=
  if world.engine.isDelaying = false ∧ (world.step act).engine.isDelaying = true then 1 else 0

/-- How many records the store counts as written in this act, if the worker does it. -/
def recordsWritten (world : World MemoryStore) : Act MemoryStore → Nat
  | .work => (world.step .work).engine.store.writes - world.engine.store.writes
  | _ => 0

end Tally

/-! ## The counters of a run -/

section Counted

variable {σ : Type} [StatusStore σ] {world : World σ} {position : Nat} {call : Call}

/-- What the counters say at every moment. -/
structure Counted (world : World σ) : Prop where
  sorted : ∀ call ∈ world.calls, call.IsSorted world.engine.settings.hostMarker
  ignored : world.engine.stats.ignored =
    world.answers.countP (Answer.wasIgnored world.engine.settings.hostMarker)
  received : world.engine.stats.received =
    world.answers.countP (Answer.wasReceived world.engine.settings.hostMarker) +
      world.calls.countP Call.isCounted
  accepted : world.log.accepted.length =
    world.answers.countP (Answer.wasAccepted world.engine.settings.hostMarker) +
      world.calls.countP Call.isWaking
  refreshes : world.engine.stats.refreshes = world.log.commits
  failed : world.engine.stats.failed = world.log.failures
  passes : world.log.starts =
    world.log.commits + world.log.failures + world.engine.isRefreshing.toNat

omit [StatusStore σ] in
theorem counted_start (settings : Settings) (policy : RetryPolicy) (store : σ) (clock : Nat) :
    (start settings policy store clock).Counted :=
  ⟨by simp [start], rfl, rfl, rfl, rfl, rfl, rfl⟩

omit [StatusStore σ] in
/-- A call that goes on keeps the counters right. -/
theorem Counted.proceed (counted : world.Counted) (found : world.calls[position]? = some call) :
    (world.proceed position call).Counted := by
  obtain ⟨before, after, left, notes, calls, part, calls', log'⟩ := exists_section found
  obtain ⟨sorted, ignored, received, accepted, refreshes, failed, passes⟩ := counted
  have inHand := countP_calls calls calls' Call.isCounted
  have waking := countP_calls calls calls' Call.isWaking
  rw [calls] at sorted
  have here : call.IsSorted world.engine.settings.hostMarker := sorted call (by simp)
  obtain ⟨ignored', received', accepted'⟩ := part.counted here
  obtain ⟨activity, _, commits', failures', _, _, fresh, uncommitted, unfailed⟩ := part.worker_eq
  have refreshing : (world.proceed position call).engine.isRefreshing =
      world.engine.isRefreshing := by
    simp only [Engine.isRefreshing, activity]
  refine ⟨?_, ?_, ?_, ?_, ?_, ?_, ?_⟩
  · rw [part.settings_eq.1, calls']
    intro next inside
    rcases List.mem_append.1 inside with inside | later
    · rcases List.mem_append.1 inside with earlier | inside
      · exact sorted next (List.mem_append_left _ earlier)
      · exact part.isSorted here next inside
    · exact sorted next (List.mem_append_right _ (List.mem_cons_of_mem _ later))
  · rw [part.settings_eq.1, answers_proceed, List.countP_append, ignored', ignored]
  · rw [part.settings_eq.1, answers_proceed, List.countP_append]
    omega
  · rw [part.settings_eq.1, answers_proceed, log', Log.accepted_append, List.countP_append,
      List.length_append]
    omega
  · rw [commits', log', Log.commits_append, uncommitted, refreshes, Nat.add_zero]
  · rw [failures', log', Log.failures_append, unfailed, failed, Nat.add_zero]
  · rw [log', Log.starts_append, Log.commits_append, Log.failures_append, fresh, uncommitted,
      unfailed, refreshing]
    exact passes

theorem Counted.step (counted : world.Counted) (act : Act σ) : (world.step act).Counted := by
  cases act with
  | work =>
    have move := world.engine.move_work
    obtain ⟨received, ignored, refreshes, failed, passes⟩ := move.counted
    have none := move.accepted_eq
    have settings := move.settings_eq
    have before := counted.passes
    refine ⟨?_, ?_, ?_, ?_, ?_, ?_, ?_⟩
    · simpa only [World.step, settings] using counted.sorted
    · simpa only [World.step, settings, ignored] using counted.ignored
    · simpa only [World.step, settings, received] using counted.received
    · simpa only [World.step, settings, Log.accepted_append, none, List.append_nil] using
        counted.accepted
    · simp only [World.step, refreshes, Log.commits_append, counted.refreshes]
    · simp only [World.step, failed, Log.failures_append, counted.failed]
    · simp only [World.step, Log.starts_append, Log.commits_append, Log.failures_append]
      omega
  | call input =>
    obtain ⟨sorted, ignored, received, accepted, refreshes, failed, passes⟩ := counted
    refine ⟨?_, ignored, ?_, ?_, refreshes, failed, passes⟩
    · simpa [World.step, or_imp, forall_and, Call.IsSorted] using sorted
    · simpa [World.step, Call.isCounted] using received
    · simpa [World.step, Call.isWaking] using accepted
  | proceed position =>
    simp only [World.step]
    split
    next found => exact counted.proceed found
    next => exact counted
  | halt =>
    simp only [World.step, Engine.halt]
    split
    next can =>
      obtain ⟨sorted, ignored, received, accepted, refreshes, failed, passes⟩ := counted
      refine ⟨sorted, ignored, received, accepted, refreshes, failed, ?_⟩
      rw [passes, Engine.isRefreshing_of_canHalt can]
      rfl
    next => exact counted
  | elapse | shutdown | conclude | drop | cancel | inspect | beside =>
    obtain ⟨sorted, ignored, received, accepted, refreshes, failed, passes⟩ := counted
    exact ⟨sorted, ignored, received, accepted, refreshes, failed, passes⟩

theorem counted_run (settings : Settings) (policy : RetryPolicy) (store : σ) (clock : Nat)
    (acts : List (Act σ)) : ((start settings policy store clock).run acts).Counted := by
  induction acts using List.reverseRecOn with
  | nil => exact counted_start settings policy store clock
  | append_singleton acts act ih =>
    rw [run, List.foldl_append]
    exact ih.step act

/-- An act that is not the worker's pushes no delay back. -/
theorem reschedules_step_le (world : World σ) (act : Act σ) :
    (world.step act).engine.stats.reschedules + (world.step act).engine.pushesLeft ≤
      world.engine.stats.reschedules + world.engine.pushesLeft +
        world.engine.settings.maxReschedules * world.delaysBegun act := by
  cases act with
  | work => exact world.engine.move_work.reschedules_le
  | proceed position =>
    simp only [step]
    split
    next found =>
      obtain ⟨_, _, _, _, _, part, _, _⟩ := exists_section found
      refine Nat.le_add_right_of_le (Nat.le_of_eq ?_)
      simp only [Engine.pushesLeft, part.worker_eq, part.settings_eq.1]
    next => exact Nat.le_add_right ..
  | halt =>
    simp only [step, Engine.halt]
    split
    next => exact Nat.le_add_right_of_le (Nat.le_add_right ..)
    next => exact Nat.le_add_right ..
  | elapse | call | shutdown | conclude | drop | cancel | inspect | beside => exact Nat.le_add_right ..

/-- Each delay that is begun may be pushed back so often. -/
theorem reschedules_run (settings : Settings) (policy : RetryPolicy) (store : σ) (clock : Nat)
    (acts : List (Act σ)) :
    let world := (start settings policy store clock).run acts
    world.engine.stats.reschedules + world.engine.pushesLeft ≤
      settings.maxReschedules * (start settings policy store clock).tally delaysBegun acts := by
  induction acts using List.reverseRecOn with
  | nil => exact Nat.le_refl 0
  | append_singleton acts act ih =>
    have step := reschedules_step_le ((start settings policy store clock).run acts) act
    rw [settings_run] at step
    rw [tally_concat, Nat.mul_add, run, List.foldl_append]
    exact Nat.le_trans step (Nat.add_le_add_right ih _)

end Counted

section Written

variable {world : World MemoryStore}

theorem written_step (act : Act MemoryStore) :
    (world.step act).engine.stats.written =
      world.engine.stats.written + world.recordsWritten act := by
  cases act with
  | work =>
    obtain ⟨count, writes, written⟩ := world.engine.move_work.written_eq
    simp only [recordsWritten, step, writes, written, Nat.add_sub_cancel_left]
  | proceed position =>
    simp only [step]
    split
    next found =>
      obtain ⟨_, _, _, _, _, part, _, _⟩ := exists_section found
      exact part.worker_eq.2.2.2.2.2.1
    next => rfl
  | halt =>
    simp only [step, Engine.halt]
    split <;> rfl
  | elapse | call | shutdown | conclude | drop | cancel | inspect | beside => rfl

theorem written_run (settings : Settings) (policy : RetryPolicy) (store : MemoryStore)
    (clock : Nat) (acts : List (Act MemoryStore)) :
    ((start settings policy store clock).run acts).engine.stats.written =
      (start settings policy store clock).tally recordsWritten acts := by
  induction acts using List.reverseRecOn with
  | nil => rfl
  | append_singleton acts act ih =>
    rw [tally_concat, ← ih, run, List.foldl_append]
    exact written_step act

/-- While the worker is parked and no call is under way, the counters account for the
run. Every report that was not refused is counted, as ignored if the host filter has
left nothing of it. Every refresh that started has ended, and is counted by how it
ended; each had new inputs or a failure before it, so there are no more of them than
inputs accepted and refreshes failed. What was written is what the store counts for
the worker, and no delay was pushed back more often than the limit allows. -/
theorem statistics_account_for_the_run (settings : Settings) (policy : RetryPolicy)
    (store : MemoryStore) (clock : Nat) (acts : List (Act MemoryStore)) :
    let first := start settings policy store clock
    let world := first.run acts
    let stats := world.engine.stats
    world.engine.activity = .parked → world.calls = [] →
      stats.received + stats.ignored = world.answers.countP Answer.isReport ∧
        stats.ignored = world.answers.countP (Answer.wasIgnored settings.hostMarker) ∧
        stats.refreshes = world.log.commits ∧ stats.failed = world.log.failures ∧
        stats.refreshes + stats.failed = world.log.starts ∧
        stats.refreshes + stats.failed ≤
          world.answers.countP (Answer.wasAccepted settings.hostMarker) + stats.failed ∧
        world.log.Justified ∧
        stats.written = first.tally recordsWritten acts ∧
        stats.reschedules ≤ settings.maxReschedules * first.tally delaysBegun acts := by
  intro first world stats parked quiet
  have counted : world.Counted := counted_run settings policy store clock acts
  have reasoned : world.Reasoned := reasoned_run settings policy store clock acts
  have settled : world.engine.settings = settings := settings_run _ acts
  obtain ⟨_, ignored, received, accepted, refreshes, failed, passes⟩ := counted
  rw [settled] at ignored received accepted
  simp only [quiet, List.countP_nil, Nat.add_zero] at received accepted
  have resting : world.engine.isRefreshing = false := by simp [Engine.isRefreshing, parked]
  simp only [resting, Bool.toNat_false, Nat.add_zero] at passes
  have bound := reasoned.justified.starts_le
  have failures : stats.failed = world.log.failures := failed
  have completed : stats.refreshes + stats.failed = world.log.starts := by
    rw [passes, ← refreshes, ← failed]
  refine ⟨?_, ignored, refreshes, failed, completed, ?_, reasoned.justified, ?_, ?_⟩
  · rw [Answer.countP_isReport settings.hostMarker, ← received, ← ignored]
  · omega
  · exact written_run settings policy store clock acts
  · exact Nat.le_of_add_right_le (reschedules_run settings policy store clock acts)

/-- A host is plugged in. -/
def hostUp : LinkEvent where
  created := [⟨⟨"host-a"⟩, .of "A" "9", .of "host" "1"⟩]

/-- The chain comes up. During the delay a host is plugged in and a refresh is asked
for, so the delay is pushed back; then the first refresh fails. -/
def busyChain : List (Act MemoryStore) :=
  Act.whole (.event chain) ++ .work :: Act.whole (.event hostUp) ++ Act.whole .refresh ++
    [.elapse 5, .work, .elapse 5] ++ List.replicate 6 .work ++ .elapse 5 ::
    List.replicate 8 .work

/-- All counters of the chain's run move, and account for it. -/
theorem busy_chain_is_accounted_for :
    let settings : Settings := ⟨5, 1, "host"⟩
    let first := start settings ⟨1, 0⟩ (MemoryStore.empty.failNext 1 (.conflict "")) 0
    let world := first.run busyChain
    let stats := world.engine.stats
    world.engine.activity = .parked ∧ world.calls = [] ∧ stats = ⟨1, 1, 1, 1, 1, 4⟩ ∧
      stats.received + stats.ignored = world.answers.countP Answer.isReport ∧
      stats.ignored = world.answers.countP (Answer.wasIgnored settings.hostMarker) ∧
      stats.refreshes = world.log.commits ∧ stats.failed = world.log.failures ∧
      stats.refreshes + stats.failed = world.log.starts ∧
      stats.refreshes + stats.failed ≤
        world.answers.countP (Answer.wasAccepted settings.hostMarker) + stats.failed ∧
      world.log.Justified ∧ stats.written = first.tally recordsWritten busyChain ∧
      stats.reschedules ≤ settings.maxReschedules * first.tally delaysBegun busyChain := by
  have account := statistics_account_for_the_run ⟨5, 1, "host"⟩ ⟨1, 0⟩
    (MemoryStore.empty.failNext 1 (.conflict "")) 0 busyChain
  -- without the abbreviations, or the sums would be evaluated to compare them
  dsimp only at account ⊢
  refine ⟨?parked, ?quiet, ?values, account ?parked ?quiet⟩
  case parked => exact Engine.parked_of_isIdle (by decide +kernel)
  case quiet => decide +kernel
  case values => decide +kernel

end Written

end World

end LoopGuard
