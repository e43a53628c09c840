import LoopGuard.Engine.Clock
import LoopGuard.Proofs.Engine.Shutdown
import Mathlib.Order.Bounds.Defs

/-!
# When a refresh starts

A refresh that is scheduled starts once nothing has come into the slot for the length of
the delay, or once it was pushed back as often as the limit allows. The time from when
it was scheduled falls into windows as long as the delay; at the end of each the worker
looks at the slot. What comes in at that very moment belongs to the window before or
after, depending on whether it comes before the look: an `Arrival` says in which window
it came. `World.Debounced` says where the worker is between two looks, and holds of
every run in which nothing but the passing of time keeps the worker waiting.
-/

namespace LoopGuard

variable {σ : Type}

/-- An input that comes into the slot while a refresh is scheduled. -/
structure Arrival where
  input : Input
  time : Nat
  /-- How often the worker had looked at the slot by then. -/
  window : Nat
deriving DecidableEq, Repr

namespace Arrival

/-- Inputs that come at one moment. -/
def atOnce (time window : Nat) (inputs : List Input) : List Arrival :=
  inputs.map (⟨·, time, window⟩)

@[simp]
theorem map_input_atOnce {time window : Nat} {inputs : List Input} :
    (atOnce time window inputs).map input = inputs := by
  simp [atOnce, Function.comp_def]

theorem of_mem_atOnce {arrival : Arrival} {time window : Nat} {inputs : List Input}
    (mem : arrival ∈ atOnce time window inputs) :
    arrival.time = time ∧ arrival.window = window := by
  obtain ⟨input, -, rfl⟩ := List.mem_map.1 mem
  exact ⟨rfl, rfl⟩

theorem exists_mem_atOnce {time window : Nat} {inputs : List Input} :
    (∃ arrival ∈ atOnce time window inputs, arrival.window = window) ↔ inputs ≠ [] := by
  cases inputs <;> simp [atOnce]

end Arrival

namespace Engine

variable [StatusStore σ] {engine next : Engine σ} {notes : Log} {pushes due : Nat}

/-- The step of a worker that sets out on a delay. -/
theorem Move.of_scheduled (move : Move engine notes next) (staged : engine.Staged)
    (apart : engine.published ≠ .scheduled) (scheduled : next.published = .scheduled) :
    next = (engine.enter .scheduled).delay 0 ∧ notes = [] ∧
      engine.pending.pushRequested = false := by
  cases move with
  | schedule activity =>
    exact ⟨rfl, rfl, staged.pushRequested_eq_false (by rw [activity]; rfl) (by decide)⟩
  | again activity =>
    exact ⟨rfl, rfl, staged.pushRequested_eq_false (by rw [activity]; rfl) (by decide)⟩
  | take | rest => cases scheduled
  | settle _ reading | propose _ reading =>
    cases reading <;> exact absurd scheduled apart
  | wait | woken | park | pushBack | ready | change | unread | commit | pause | giveUp
  | retry => exact absurd scheduled apart

theorem work_of_delaying (delaying : engine.activity = .delaying pushes due)
    (ended : due ≤ engine.clock) :
    engine.work = engine.endDelay pushes ∧ engine.workNotes = [] := by
  simp only [work, workNotes, delaying, if_neg (Nat.not_lt.2 ended), and_self]

omit [StatusStore σ] in
/-- What comes into the slot while a refresh is scheduled asks for it to be pushed back. -/
theorem Section.requested {call : Call} {left : List Call}
    (part : Section engine call next left notes) :
    next.pending.stage = engine.pending.stage ∧
      (engine.pending.stage = .scheduled →
        (next.pending.pushRequested = true ↔
          engine.pending.pushRequested = true ∨ Log.accepted notes ≠ [])) := by
  cases part with
  | queueEvent | queueRefresh =>
    refine ⟨rfl, fun scheduled => ?_⟩
    simp [receive, Pending.markQueued, scheduled]
  | refuse | drop | pass | ignore | count | wake =>
    refine ⟨rfl, fun _ => ?_⟩
    simp [Log.accepted, countIgnored, countReceived, Engine.wake]

end Engine

namespace World

/-- The moment at which a window opens, for a refresh that is scheduled now. -/
def opening (world : World σ) (window : Nat) : Nat :=
  world.engine.clock + window * world.engine.settings.refreshDelay

theorem opening_zero (world : World σ) : world.opening 0 = world.engine.clock := by
  simp [opening]

theorem opening_succ (world : World σ) (window : Nat) :
    world.opening (window + 1) = world.opening window + world.engine.settings.refreshDelay := by
  rw [opening, Nat.succ_mul, ← Nat.add_assoc, opening]

theorem opening_mono (world : World σ) {early late : Nat} (before : early ≤ late) :
    world.opening early ≤ world.opening late :=
  Nat.add_le_add_left (Nat.mul_le_mul_right _ before) _

variable [StatusStore σ]

/-! ## Runs against the clock -/

/-- Time passes only while the worker waits, and not beyond the moment at which it goes
on. -/
def keepsTime (world : World σ) : Act σ → Bool
  | .elapse span =>
    world.engine.isWaiting && world.engine.due?.all (world.engine.clock + span ≤ ·)
  | _ => true

/-- Nothing but the passing of time keeps the worker waiting. -/
def isPunctual (world : World σ) : List (Act σ) → Bool
  | [] => true
  | act :: rest => world.keepsTime act && (world.step act).isPunctual rest

/-- The inputs that come into the slot in this act. -/
def accepts (world : World σ) (act : Act σ) : List Input :=
  Log.accepted ((world.step act).log.drop world.log.length)

/-- Whether the worker, at the end of a delay, looks at the slot in this act. -/
def looks (world : World σ) : Act σ → Bool
  | .work => world.engine.isDelaying && !world.engine.isWaiting
  | _ => false

/-- What comes into the slot, once the worker has looked at it so often. -/
def arrivals (world : World σ) (looked : Nat) : List (Act σ) → List Arrival
  | [] => []
  | act :: rest =>
    Arrival.atOnce world.engine.clock looked (world.accepts act) ++
      (world.step act).arrivals (looked + (world.looks act).toNat) rest

/-- The inputs come into the slot, and the worker is left alone. -/
structure Receives (world : World σ) (inputs : List Input) (after : World σ) : Prop where
  accepted : after.log.accepted = world.log.accepted ++ inputs
  starts : after.log.starts = world.log.starts
  activity : after.engine.activity = world.engine.activity
  clock : after.engine.clock = world.engine.clock
  settings : after.engine.settings = world.engine.settings
  stage : after.engine.pending.stage = world.engine.pending.stage
  reschedules : after.engine.stats.reschedules = world.engine.stats.reschedules
  requested : world.engine.pending.stage = .scheduled →
    (after.engine.pending.pushRequested = true ↔
      world.engine.pending.pushRequested = true ∨ inputs ≠ [])

variable {first world after : World σ} {act : Act σ} {seen : List Arrival} {looked pushes : Nat}

theorem accepts_of_log_eq {notes : Log} (log : (world.step act).log = world.log ++ notes) :
    world.accepts act = Log.accepted notes := by
  rw [accepts, log, List.drop_left]

theorem receives_of_log_eq (same : world.step act = after) (log : after.log = world.log)
    (activity : after.engine.activity = world.engine.activity)
    (clock : after.engine.clock = world.engine.clock)
    (pending : after.engine.pending = world.engine.pending)
    (reschedules : after.engine.stats.reschedules = world.engine.stats.reschedules) :
    world.Receives (world.accepts act) (world.step act) := by
  have silent : (world.step act).log = world.log ++ [] := by rw [same, log, List.append_nil]
  rw [accepts_of_log_eq silent, same]
  refine ⟨?_, by rw [log], activity, clock, same ▸ settings_step, by rw [pending], reschedules,
    fun _ => ?_⟩
  · rw [log]
    exact (List.append_nil _).symm
  · simp [pending, Log.accepted]

/-- Nobody but the worker itself and the clock makes a difference to an open worker,
except by what comes into the slot. -/
theorem receives_step (other : act ≠ .work) (still : ∀ span, act ≠ .elapse span)
    (isOpen : world.engine.cancelled = false) :
    world.Receives (world.accepts act) (world.step act) := by
  cases act with
  | work => exact absurd rfl other
  | elapse span => exact absurd rfl (still span)
  | halt =>
    have asleep : world.engine.halt = world.engine := by
      simp [Engine.halt, Engine.canHalt, isOpen]
    exact receives_of_log_eq (by rw [step, asleep]) rfl rfl rfl rfl rfl
  | proceed position =>
    cases found : world.calls[position]? with
    | none => exact receives_of_log_eq (by simp only [step, found]) rfl rfl rfl rfl rfl
    | some call =>
      obtain ⟨_, _, _, notes, _, part, _, log⟩ := exists_section found
      have same : world.step (.proceed position) = world.proceed position call := by
        simp only [step, found]
      obtain ⟨activity, -, -, -, reschedules, -, starts, -⟩ := part.worker_eq
      rw [accepts_of_log_eq (same ▸ log), same]
      refine ⟨?_, ?_, activity, part.clock_eq, part.settings_eq.1, part.requested.1, reschedules,
        part.requested.2⟩
      · rw [log, Log.accepted_append]
      · rw [log, Log.starts_append, starts, Nat.add_zero]
  | call | shutdown | conclude | drop | cancel | inspect | beside => exact receives_of_log_eq rfl rfl rfl rfl rfl rfl

/-! ## Between two looks -/

/-- The refresh was pushed back so often, each time because something had come in the
window that ended then. -/
structure Pushed (first : World σ) (seen : List Arrival) (pushes : Nat) (world : World σ) :
    Prop where
  accepted : world.log.accepted = first.log.accepted ++ seen.map Arrival.input
  timely : ∀ arrival ∈ seen, first.opening arrival.window ≤ arrival.time ∧
    arrival.time ≤ first.opening (arrival.window + 1)
  starts : world.log.starts = first.log.starts
  stage : world.engine.pending.stage = .scheduled
  settings : world.engine.settings = first.engine.settings
  limit : pushes ≤ first.engine.settings.maxReschedules
  reschedules : world.engine.stats.reschedules = first.engine.stats.reschedules + pushes
  crowded : ∀ window < pushes, ∃ arrival ∈ seen, arrival.window = window

/-- Where the worker is, on the way from when the refresh was scheduled to its start,
after so many looks at the slot. -/
inductive Debounced (first : World σ) (seen : List Arrival) : Nat → World σ → Prop
  | delaying {pushes : Nat} {world : World σ} (pushed : first.Pushed seen pushes world)
    (delaying : world.engine.activity = .delaying pushes (first.opening (pushes + 1)))
    (begun : first.opening pushes ≤ world.engine.clock)
    (ahead : world.engine.clock ≤ first.opening (pushes + 1))
    (past : ∀ arrival ∈ seen, arrival.window ≤ pushes)
    (requested : world.engine.pending.pushRequested = true ↔
      ∃ arrival ∈ seen, arrival.window = pushes) :
    Debounced first seen pushes world
  | ready {pushes : Nat} {world : World σ} (pushed : first.Pushed seen pushes world)
    (taking : world.engine.activity = .taking)
    (ended : world.engine.clock = first.opening (pushes + 1))
    (calm : pushes = first.engine.settings.maxReschedules ∨
      ∀ arrival ∈ seen, arrival.window ≠ pushes) :
    Debounced first seen (pushes + 1) world

omit [StatusStore σ] in
theorem Debounced.exists_pushed (debounced : first.Debounced seen looked world) :
    ∃ pushes, first.Pushed seen pushes world := by
  cases debounced with
  | delaying pushed | ready pushed => exact ⟨_, pushed⟩

omit [StatusStore σ] in
theorem Pushed.receives {inputs : List Input} (pushed : first.Pushed seen pushes world)
    (receives : world.Receives inputs after) (begun : first.opening looked ≤ world.engine.clock)
    (ahead : world.engine.clock ≤ first.opening (looked + 1)) :
    first.Pushed (seen ++ Arrival.atOnce world.engine.clock looked inputs) pushes after := by
  refine ⟨?_, ?_, receives.starts.trans pushed.starts, receives.stage.trans pushed.stage,
    receives.settings.trans pushed.settings, pushed.limit,
    receives.reschedules.trans pushed.reschedules, fun window below => ?_⟩
  · simp [receives.accepted, pushed.accepted]
  · intro arrival mem
    rcases List.mem_append.1 mem with old | new
    · exact pushed.timely arrival old
    · obtain ⟨time, window⟩ := Arrival.of_mem_atOnce new
      rw [time, window]
      exact ⟨begun, ahead⟩
  · obtain ⟨arrival, old, here⟩ := pushed.crowded window below
    exact ⟨arrival, List.mem_append_left _ old, here⟩

omit [StatusStore σ] in
theorem Debounced.receives {inputs : List Input} (debounced : first.Debounced seen looked world)
    (receives : world.Receives inputs after) :
    first.Debounced (seen ++ Arrival.atOnce world.engine.clock looked inputs) looked after := by
  cases debounced with
  | delaying pushed delaying begun ahead past requested =>
    refine .delaying (pushed.receives receives begun ahead)
      (receives.activity.trans delaying) ?_ ?_ (fun arrival mem => ?_) ?_
    · rwa [receives.clock]
    · rwa [receives.clock]
    · rcases List.mem_append.1 mem with old | new
      · exact past arrival old
      · exact Nat.le_of_eq (Arrival.of_mem_atOnce new).2
    · simp only [List.mem_append, or_and_right, exists_or, Arrival.exists_mem_atOnce]
      rw [receives.requested pushed.stage, requested]
  | @ready pushes _ pushed taking ended calm =>
    have ahead : first.opening (pushes + 1) ≤ first.opening (pushes + 1 + 1) :=
      first.opening_mono (Nat.le_succ _)
    rw [← ended] at ahead
    refine .ready (pushed.receives receives (Nat.le_of_eq ended.symm) ahead)
      (receives.activity.trans taking) (receives.clock.trans ended) (calm.imp_right fun quiet => ?_)
    -- what comes after the last look is left for the next window, which is never looked at
    intro arrival mem
    rcases List.mem_append.1 mem with old | new
    · exact quiet arrival old
    · rw [(Arrival.of_mem_atOnce new).2]
      exact Nat.succ_ne_self pushes

theorem Pushed.elapse {span : Nat} (pushed : first.Pushed seen pushes world) :
    first.Pushed seen pushes (world.step (.elapse span)) := by
  obtain ⟨accepted, timely, starts, stage, settings, limit, reschedules, crowded⟩ := pushed
  exact ⟨accepted, timely, starts, stage, settings, limit, reschedules, crowded⟩

/-- Time passes up to the end of the window. -/
theorem Debounced.elapse {span : Nat} (debounced : first.Debounced seen looked world)
    (timely : world.keepsTime (.elapse span) = true) :
    first.Debounced seen looked (world.step (.elapse span)) := by
  rw [keepsTime, Bool.and_eq_true] at timely
  obtain ⟨waiting, due⟩ := timely
  cases debounced with
  | delaying pushed delaying begun ahead past requested =>
    refine .delaying pushed.elapse delaying (Nat.le_add_right_of_le begun) ?_ past requested
    simp only [Engine.due?, delaying, Option.all_some, decide_eq_true_eq] at due
    exact due
  | ready pushed taking => simp [Engine.isWaiting, Engine.due?, taking] at waiting

/-- At the end of a window the refresh is pushed back, or about to start. -/
theorem Pushed.look (pushed : first.Pushed seen pushes world)
    (delaying : world.engine.activity = .delaying pushes (first.opening (pushes + 1)))
    (ended : world.engine.clock = first.opening (pushes + 1))
    (past : ∀ arrival ∈ seen, arrival.window ≤ pushes)
    (requested : world.engine.pending.pushRequested = true ↔
      ∃ arrival ∈ seen, arrival.window = pushes) :
    first.Debounced seen (pushes + 1) (world.step .work) := by
  obtain ⟨work, notes⟩ := Engine.work_of_delaying delaying (Nat.le_of_eq ended.symm)
  have same : world.step .work = { world with engine := world.engine.endDelay pushes } := by
    simp only [step, work, notes, List.append_nil]
  obtain ⟨accepted, timely, starts, stage, settings, limit, reschedules, crowded⟩ := pushed
  rw [same, Engine.endDelay]
  split
  next push =>
    rw [Bool.and_eq_true, decide_eq_true_eq, settings, requested] at push
    obtain ⟨came, below⟩ := push
    have due : world.engine.clock + world.engine.settings.refreshDelay =
        first.opening (pushes + 1 + 1) := by
      rw [opening_succ first (pushes + 1), ended, settings]
    refine .delaying ⟨accepted, timely, starts, stage, settings, below, ?_, fun window before => ?_⟩
      (congrArg (Activity.delaying (pushes + 1)) due) (Nat.le_of_eq ended.symm) ?_
      (fun arrival mem => Nat.le_succ_of_le (past arrival mem)) ?_
    · exact (congrArg (· + 1) reschedules).trans (Nat.add_assoc ..)
    · rcases Nat.lt_succ_iff_lt_or_eq.1 before with earlier | rfl
      · exact crowded window earlier
      · exact came
    · exact due ▸ Nat.le_add_right ..
    · -- nothing can have come in the window that opens now
      refine iff_of_false Bool.false_ne_true fun came => ?_
      obtain ⟨arrival, mem, here⟩ := came
      have before := past arrival mem
      omega
  next calm =>
    rw [Bool.and_eq_true, decide_eq_true_eq, settings, requested] at calm
    refine .ready ⟨accepted, timely, starts, stage, settings, limit, reschedules, crowded⟩
      rfl ended ?_
    by_cases below : pushes < first.engine.settings.maxReschedules
    · exact .inr fun arrival mem here => calm ⟨⟨arrival, mem, here⟩, below⟩
    · exact .inl (by omega)

theorem accepts_work : world.accepts .work = [] := by
  rw [accepts_of_log_eq rfl, world.engine.move_work.accepted_eq]

/-- The worker goes on only at the end of a window. -/
theorem Debounced.work (debounced : first.Debounced seen looked world)
    (same : (world.step .work).log.starts = first.log.starts) :
    first.Debounced seen (looked + (world.looks .work).toNat) (world.step .work) := by
  cases debounced with
  | delaying pushed delaying begun ahead past requested =>
    rcases Nat.lt_or_eq_of_le ahead with early | ended
    · have waits : world.looks .work = false ∧ world.step .work = world := by
        simp [looks, step, Engine.isDelaying, Engine.isWaiting, Engine.due?, Engine.work,
          Engine.workNotes, delaying, early]
      rw [waits.1, waits.2]
      exact .delaying pushed delaying begun ahead past requested
    · have looks : world.looks .work = true := by
        simp [looks, Engine.isDelaying, Engine.isWaiting, Engine.due?, delaying, ended]
      rw [looks]
      exact pushed.look delaying ended past requested
  | ready pushed taking =>
    have starts : (world.step .work).log.starts = world.log.starts + 1 := by
      simp [step, Engine.workNotes, taking]
    have before := pushed.starts
    omega

/-- Every act of a punctual run leaves the worker on its way, unless it starts the
refresh. -/
theorem Debounced.step (debounced : first.Debounced seen looked world)
    (timely : world.keepsTime act = true) (isOpen : world.engine.cancelled = false)
    (same : (world.step act).log.starts = first.log.starts) :
    first.Debounced (seen ++ Arrival.atOnce world.engine.clock looked (world.accepts act))
      (looked + (world.looks act).toNat) (world.step act) := by
  cases act with
  | work =>
    rw [accepts_work]
    exact (List.append_nil seen).symm ▸ debounced.work same
  | elapse span =>
    rw [accepts_of_log_eq (List.append_nil _).symm]
    exact (List.append_nil seen).symm ▸ debounced.elapse timely
  | halt | call | proceed | shutdown | conclude | drop | cancel | inspect | beside =>
    exact debounced.receives (receives_step nofun nofun isOpen)

theorem Debounced.run {later : List (Act σ)} (debounced : first.Debounced seen looked world)
    (punctual : world.isPunctual later = true)
    (isOpen : (world.run later).engine.cancelled = false)
    (same : (world.run later).log.starts = first.log.starts) :
    ∃ looked', first.Debounced (seen ++ world.arrivals looked later) looked' (world.run later) := by
  induction later generalizing world seen looked with
  | nil => exact ⟨looked, (List.append_nil seen).symm ▸ debounced⟩
  | cons act rest ih =>
    rw [isPunctual, Bool.and_eq_true] at punctual
    have still : (world.step act).log.starts = first.log.starts := by
      obtain ⟨pushes, pushed⟩ := debounced.exists_pushed
      have before := pushed.starts
      have now : world.log.starts ≤ (world.step act).log.starts := (handed_run world [act]).2.1
      have rest : (world.step act).log.starts ≤ (world.run (act :: rest)).log.starts :=
        (handed_run (world.step act) rest).2.1
      omega
    rw [arrivals, ← List.append_assoc]
    exact ih (debounced.step punctual.1 (cancelled_of_step (cancelled_of_run isOpen)) still)
      punctual.2 isOpen same

/-- A refresh that is scheduled waits for the first window to end. -/
theorem debounced_step_work (staged : first.engine.Staged)
    (apart : first.engine.published ≠ .scheduled)
    (scheduled : (first.step .work).engine.published = .scheduled) :
    first.Debounced [] 0 (first.step .work) := by
  obtain ⟨engine, notes, unpushed⟩ := first.engine.move_work.of_scheduled staged apart scheduled
  have same : first.step .work =
      { first with engine := (first.engine.enter .scheduled).delay 0 } := by
    simp only [step, engine, notes, List.append_nil]
  have due : first.engine.clock + first.engine.settings.refreshDelay = first.opening 1 := by
    rw [opening_succ, opening_zero]
  rw [same]
  have pushed : first.Pushed [] 0
      { first with engine := (first.engine.enter .scheduled).delay 0 } := by
    refine ⟨(List.append_nil _).symm, ?_, rfl, rfl, rfl, Nat.zero_le _, rfl, ?_⟩
    · simp
    · simp
  refine .delaying pushed (congrArg (Activity.delaying 0) due) (Nat.le_of_eq first.opening_zero)
    ?_ (by simp) ?_
  · exact due ▸ Nat.le_add_right ..
  · refine iff_of_false ?_ (by simp)
    simp [Engine.delay, Engine.enter, unpushed]

/-- The worker can get to such a world without anybody else, and as soon as the clock
allows. -/
def ReachesPunctually (world : World σ) (goal : World σ → Prop) : Prop :=
  ∃ acts : List (Act σ), (∀ act ∈ acts, act.isUnaided = true) ∧
    world.isPunctual acts = true ∧ goal (world.run acts)

theorem ReachesPunctually.of_step {goal : World σ → Prop} (act : Act σ)
    (unaided : act.isUnaided = true) (timely : world.keepsTime act = true)
    (rest : (world.step act).ReachesPunctually goal) : world.ReachesPunctually goal := by
  obtain ⟨acts, unaided', punctual, reached⟩ := rest
  refine ⟨act :: acts, by simpa [unaided] using unaided', ?_, reached⟩
  rw [isPunctual, timely, punctual, Bool.and_self]

/-- The number of looks is limited, so the refresh starts in the end. -/
theorem Debounced.reaches (debounced : first.Debounced seen looked world) :
    world.ReachesPunctually fun last => last.log.starts = first.log.starts + 1 := by
  induction left : first.engine.settings.maxReschedules + 1 - looked using Nat.strongRecOn
    generalizing world looked with
  | ind left ih =>
    cases debounced with
    | ready pushed taking =>
      refine .of_step .work rfl rfl ⟨[], nofun, rfl, ?_⟩
      simp [World.run, World.step, Engine.workNotes, taking, pushed.starts]
    | delaying pushed delaying begun ahead past requested =>
      have few : looked ≤ first.engine.settings.maxReschedules := pushed.limit
      rcases Nat.lt_or_eq_of_le ahead with early | ended
      · refine .of_step (.elapse (first.opening (looked + 1) - world.engine.clock)) rfl ?_
          (.of_step .work rfl rfl
            (ih _ (by omega) (pushed.elapse.look delaying ?_ past requested) rfl))
        · simp [keepsTime, Engine.isWaiting, Engine.due?, delaying, early]
          omega
        · exact Nat.add_sub_of_le ahead
      · exact .of_step .work rfl rfl
          (ih _ (by omega) (pushed.look delaying ended past requested) rfl)

omit [StatusStore σ] in
theorem Debounced.clock_le (debounced : first.Debounced seen looked world) :
    world.engine.clock ≤ first.opening (first.engine.settings.maxReschedules + 1) := by
  cases debounced with
  | delaying pushed _ _ ahead =>
    exact Nat.le_trans ahead (first.opening_mono (Nat.succ_le_succ pushed.limit))
  | ready pushed _ ended =>
    exact ended ▸ first.opening_mono (Nat.succ_le_succ pushed.limit)

/-- What is known of a refresh that was pushed back so often and starts now. -/
structure Starts (first : World σ) (seen : List Arrival) (pushes : Nat) (world : World σ) :
    Prop where
  least : IsLeast {window | window ≤ first.engine.settings.maxReschedules ∧
    (window = first.engine.settings.maxReschedules ∨
      ∀ arrival ∈ seen, arrival.window ≠ window)} pushes
  clock : world.engine.clock = first.opening (pushes + 1)
  reschedules : world.engine.stats.reschedules = first.engine.stats.reschedules + pushes
  /-- Below the limit, nothing came in the time of a delay before. -/
  quiet : pushes < first.engine.settings.maxReschedules → ∀ arrival ∈ seen,
    arrival.time + first.engine.settings.refreshDelay ≤ world.engine.clock ∨
      world.engine.clock ≤ arrival.time

omit [StatusStore σ] in
theorem Starts.pushes_eq (starts : first.Starts seen pushes world) :
    pushes = world.engine.stats.reschedules - first.engine.stats.reschedules := by
  rw [starts.reschedules, Nat.add_sub_cancel_left]

omit [StatusStore σ] in
theorem Debounced.starts (debounced : first.Debounced seen looked world)
    (taking : world.engine.activity = .taking) : ∃ pushes, first.Starts seen pushes world := by
  cases debounced with
  | delaying _ delaying => cases delaying.symm.trans taking
  | @ready pushes _ pushed _ ended calm =>
    refine ⟨pushes, ⟨⟨pushed.limit, calm⟩, fun window ⟨within, rests⟩ => ?_⟩, ended,
      pushed.reschedules, fun below arrival mem => ?_⟩
    · by_contra earlier
      rw [Nat.not_le] at earlier
      obtain ⟨arrival, mem, here⟩ := pushed.crowded window earlier
      have limit := pushed.limit
      exact rests.elim (fun last => by omega) fun quiet => quiet arrival mem here
    · have apart := calm.resolve_left (Nat.ne_of_lt below) arrival mem
      obtain ⟨begun, ahead⟩ := pushed.timely arrival mem
      rw [ended]
      rcases Nat.lt_or_gt_of_ne apart with before | after
      · refine .inl ?_
        rw [opening_succ]
        exact Nat.add_le_add_right (Nat.le_trans ahead (first.opening_mono before)) _
      · exact .inr (Nat.le_trans (first.opening_mono after) begun)

/-- A refresh that is scheduled, at rest or after another one, starts at the end of the
first window in which nothing came, or of the last one that the limit allows; it was
pushed back once for each window before, and takes all that was accepted by then. What
was accepted before it was scheduled does not count, and what came after counts for the
window that its time lies in. If the limit was not reached, nothing came in the time of a
delay before the start. As long as it has not started, no more time has passed than the
limit allows, and its start needs nobody but the worker and the clock. -/
theorem refresh_starts_after_quiet_window (settings : Settings) (policy : RetryPolicy)
    (store : σ) (clock : Nat) (acts later : List (Act σ)) :
    let first := (start settings policy store clock).run acts
    let world := first.step .work
    let after := world.run later
    let arrivals := world.arrivals 0 later
    first.engine.published ≠ .scheduled → world.engine.published = .scheduled →
      world.isPunctual later = true → after.engine.cancelled = false →
      after.log.starts = world.log.starts →
      after.log.accepted = first.log.accepted ++ arrivals.map Arrival.input ∧
      (∀ arrival ∈ arrivals, first.opening arrival.window ≤ arrival.time ∧
        arrival.time ≤ first.opening (arrival.window + 1)) ∧
      after.engine.clock ≤ first.opening (settings.maxReschedules + 1) ∧
      after.ReachesPunctually (fun last => last.log.starts = world.log.starts + 1) ∧
      ∀ act, let started := after.step act
        started.log.starts ≠ world.log.starts →
          (∃ pushes, first.Starts arrivals pushes after) ∧
          started.engine.published = .refreshing ∧
          started.engine.pending = { stage := .refreshing } ∧
          started.handed = Input.allChanges settings.hostMarker after.log.accepted := by
  intro first world after arrivals apart scheduled punctual isOpen same
  have aligned : first.Aligned := aligned_run settings policy store clock acts
  have settled : first.engine.settings = settings := settings_run _ acts
  have begins : first.Debounced [] 0 world :=
    debounced_step_work aligned.staged apart scheduled
  obtain ⟨_, fresh⟩ := begins.exists_pushed
  have none : world.log.starts = first.log.starts := fresh.starts
  obtain ⟨looked, debounced⟩ := begins.run punctual isOpen (same.trans none)
  have debounced : first.Debounced arrivals looked after := debounced
  obtain ⟨pushes, pushed⟩ := debounced.exists_pushed
  have conserved : after.Conserved := by
    have all := conserved_run settings policy store clock (acts ++ .work :: later)
    rwa [run_append] at all
  have limited := debounced.clock_le
  rw [settled] at limited
  refine ⟨pushed.accepted, pushed.timely, limited, none ▸ debounced.reaches, ?_⟩
  intro act started took
  have work : act = .work := by
    by_contra other
    exact took ((worker_step other).2.1.trans same)
  subst work
  have taking : after.engine.activity = .taking := by
    by_contra elsewhere
    exact took ((starts_step_work elsewhere).trans same)
  have taken : started.engine = after.engine.take := by
    simp only [started, step, Engine.work, taking]
  have handed := (handed_step_taking taking conserved).1
  rw [pushed.settings, settled] at handed
  exact ⟨debounced.starts taking, by rw [taken]; rfl, by rw [taken]; rfl, handed⟩

/-- The delay of five is over at 105 and again at 110, and a third one would be allowed.
A refresh is asked for at 103, the chain is cut at 105 before the worker looks, and
another refresh is asked for at 110 after it has looked. -/
def cutDuringDelay : List (Act MemoryStore) :=
  .elapse 3 :: Act.whole .refresh ++ .elapse 2 :: Act.whole (.event (cutAt "1")) ++
    [.work, .elapse 5, .work] ++ Act.whole .refresh

/-- The chain is scheduled at 100. The second window is quiet, so the refresh starts at
110 and takes the chain, its cut and both requests. -/
theorem cut_during_delay_pushes_back_once :
    let first := (start ⟨5, 2, ""⟩ ⟨1, 0⟩ MemoryStore.empty 100).run (Act.whole (.event chain))
    let world := first.step .work
    let after := world.run cutDuringDelay
    let arrivals := world.arrivals 0 cutDuringDelay
    let started := after.step .work
    arrivals = [⟨.refresh, 103, 0⟩, ⟨.event (cutAt "1"), 105, 0⟩, ⟨.refresh, 110, 2⟩] ∧
      first.Starts arrivals 1 after ∧ after.engine.clock = 110 ∧
      after.engine.stats.reschedules = 1 ∧
      after.ReachesPunctually (fun last => last.log.starts = world.log.starts + 1) ∧
      started.engine.pending = { stage := .refreshing } ∧
      started.handed = chain.changes ++ (cutAt "1").changes := by
  intro first world after arrivals started
  have came : arrivals =
      [⟨.refresh, 103, 0⟩, ⟨.event (cutAt "1"), 105, 0⟩, ⟨.refresh, 110, 2⟩] := by decide +kernel
  have clock : after.engine.clock = 110 := by decide +kernel
  have reschedules : after.engine.stats.reschedules = 1 := by decide +kernel
  have accepted : Input.allChanges "" after.log.accepted =
      chain.changes ++ (cutAt "1").changes := by decide +kernel
  obtain ⟨_, _, _, reaches, starts⟩ := refresh_starts_after_quiet_window ⟨5, 2, ""⟩ ⟨1, 0⟩
    MemoryStore.empty 100 (Act.whole (.event chain)) cutDuringDelay (by decide +kernel)
    (by decide +kernel) (by decide +kernel) (by decide +kernel) (by decide +kernel)
  obtain ⟨⟨pushes, begins⟩, -, pending, handed⟩ := starts .work (by decide +kernel)
  have once : pushes = 1 := begins.pushes_eq.trans (by decide +kernel)
  subst once
  exact ⟨came, begins, clock, reschedules, reaches, pending, handed.trans accepted⟩

end World

end LoopGuard
