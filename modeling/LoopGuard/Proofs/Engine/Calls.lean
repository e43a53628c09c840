import LoopGuard.Proofs.Engine.Rest

/-!
# Calls under way

A call owes the slot its changes until it has queued them, and owes the worker
a wake-up from then on. `Engine.Section` lists everything that one section of a
call can do. While the engine is not shut down, what came into the slot together
with what the calls owe changes only when a call begins (`World.history_proceed`),
and a worker that is parked over a full slot is about to be woken
(`World.Woken`).
-/

namespace LoopGuard

/-- The input of a call that returned, with its result. -/
abbrev Answer := Input × Except GuardError Unit

namespace Call

/-- What the caller hands over. -/
def input : Call → Input
  | .enter input | .queue input | .wake input => input
  | .ignore event | .count event => .event event

/-- Whether the call reports an event. -/
def isReport (call : Call) : Bool :=
  match call.input with
  | .event _ => true
  | .refresh => false

/-- The changes that the call has still to bring into the slot. -/
def owed (marker : String) : Call → List LinkChange
  | .enter input | .queue input => input.changes marker
  | .ignore _ | .count _ | .wake _ => []

/-- Whether the call has filled the slot and has still to wake the worker. -/
def isWaking : Call → Bool
  | .count _ | .wake _ => true
  | .enter _ | .ignore _ | .queue _ => false

/-- The inputs that the calls have brought into the slot without waking the worker
so far. -/
def waking (calls : List Call) : List Input := (calls.filter isWaking).map input

/-- What the next section of a call gives its caller. -/
def reply (shut : Bool) : Call → List Answer
  | .enter input => if shut then [(input, .error .shutdown)] else []
  | .ignore event => [(.event event, .ok ())]
  | .wake input => [(input, .ok ())]
  | .queue _ | .count _ => []

/-- A call that asks for a refresh owes no change. -/
theorem owed_of_not_isReport {marker : String} {call : Call} (request : call.isReport = false) :
    call.owed marker = [] := by
  cases call with
  | enter input | queue input =>
    cases input with
    | event event => cases request
    | refresh => rfl
  | ignore | count | wake => rfl

end Call

namespace Engine

variable {σ : Type}

/-- One section of a call: what it makes of the engine, the call that is left,
and its notes. -/
inductive Section : Engine σ → Call → Engine σ → List Call → Log → Prop
  | refuse {engine : Engine σ} {input : Input} (shut : engine.cancelled = true) :
    Section engine (.enter input) engine [] []
  | drop {engine : Engine σ} {event : LinkEvent} (isOpen : engine.cancelled = false)
    (hosts : (event.withoutHostLinks engine.settings.hostMarker).isEmpty = true) :
    Section engine (.enter (.event event)) engine [.ignore event] []
  | pass {engine : Engine σ} {input : Input} (isOpen : engine.cancelled = false)
    (links : ∀ event, input = .event event →
      (event.withoutHostLinks engine.settings.hostMarker).isEmpty = false) :
    Section engine (.enter input) engine [.queue input] []
  | ignore {engine : Engine σ} {event : LinkEvent} :
    Section engine (.ignore event) engine.countIgnored [] []
  | queueEvent {engine : Engine σ} {event : LinkEvent} :
    Section engine (.queue (.event event)) (engine.receive (.event event)) [.count event]
      [.accepted (.event event)]
  | queueRefresh {engine : Engine σ} :
    Section engine (.queue .refresh) (engine.receive .refresh) [.wake .refresh]
      [.accepted .refresh]
  | count {engine : Engine σ} {event : LinkEvent} :
    Section engine (.count event) engine.countReceived [.wake (.event event)] []
  | wake {engine : Engine σ} {input : Input} : Section engine (.wake input) engine.wake [] []

variable {engine after : Engine σ} {call : Call} {left : List Call} {notes : Log}

theorem Section.settings_eq (part : Section engine call after left notes) :
    after.settings = engine.settings ∧ after.cancelled = engine.cancelled := by
  cases part <;> exact ⟨rfl, rfl⟩

/-- An open engine takes over what the call owes. -/
theorem Section.owed_eq (part : Section engine call after left notes)
    (isOpen : engine.cancelled = false) :
    Input.allChanges engine.settings.hostMarker (Log.accepted notes) ++
        left.flatMap (Call.owed engine.settings.hostMarker) =
      call.owed engine.settings.hostMarker := by
  cases part with
  | refuse shut => exact absurd shut (by simp [isOpen])
  | drop _ hosts =>
    rw [LinkEvent.isEmpty, Bool.and_eq_true] at hosts
    simp [Log.accepted, Input.allChanges, Call.owed, Input.changes, LinkEvent.changes, hosts]
  | pass => simp [Log.accepted, Input.allChanges, Call.owed]
  | queueEvent => simp [Input.allChanges, Call.owed]
  | queueRefresh => simp [Input.allChanges, Call.owed]
  | ignore | count | wake => rfl

/-- A section leaves the kind of the call alone. -/
theorem Section.countP_isReport_le (part : Section engine call after left notes) :
    left.countP Call.isReport ≤ if call.isReport then 1 else 0 := by
  cases part with
  | refuse | ignore | wake => exact Nat.zero_le _
  | drop | queueEvent | queueRefresh | count => exact Nat.le_refl _
  | @pass input => cases input <;> exact Nat.le_refl _

/-- A section that does not wake the worker leaves that to the call, for whatever it
brings into the slot and whatever the call has brought there before. -/
theorem Section.waking_le (part : Section engine call after left notes)
    (asleep : after.permit = false) (input : Input) :
    engine.permit = false ∧ after.activity = engine.activity ∧ Log.starts notes = 0 ∧
      (Log.accepted notes ++ Call.waking [call]).count input ≤ (Call.waking left).count input := by
  cases part with
  | refuse | drop | pass | ignore | queueEvent | queueRefresh | count =>
    exact ⟨asleep, rfl, rfl, Nat.le_refl _⟩
  | wake => cases asleep

/-- A section of a call leaves the worker and what it counts alone. -/
theorem Section.worker_eq (part : Section engine call after left notes) :
    after.activity = engine.activity ∧ after.store = engine.store ∧
      after.stats.refreshes = engine.stats.refreshes ∧ after.stats.failed = engine.stats.failed ∧
      after.stats.reschedules = engine.stats.reschedules ∧
      after.stats.written = engine.stats.written ∧
      Log.starts notes = 0 ∧ Log.commits notes = 0 ∧ Log.failures notes = 0 := by
  cases part <;> exact ⟨rfl, rfl, rfl, rfl, rfl, rfl, rfl, rfl, rfl⟩

section Move

variable [StatusStore σ] {next : Engine σ}

theorem Move.cancelled_eq (move : Move engine notes next) : next.cancelled = engine.cancelled := by
  cases move with
  | settle _ reading | propose _ reading => cases reading <;> rfl
  | _ => rfl

/-- A worker that is parked was so before, or has found the slot empty. -/
theorem Move.of_parked (move : Move engine notes next) (parked : next.activity = .parked) :
    notes = [] ∧ next.permit = engine.permit ∧
      (engine.activity = .parked ∨ engine.pending.queued = false) := by
  cases move with
  | wait => exact ⟨rfl, rfl, .inl parked⟩
  | park _ empty => exact ⟨rfl, rfl, .inr empty⟩
  | _ => cases parked

end Move

end Engine

namespace World

variable {σ : Type} {world : World σ} {position : Nat} {call : Call}

/-- A call that goes on passes through one section, and its place among the
calls is taken by what is left of it. -/
theorem exists_section (found : world.calls[position]? = some call) :
    ∃ (before after left : List Call) (notes : Log),
      world.calls = before ++ call :: after ∧
      Engine.Section world.engine call (world.proceed position call).engine left notes ∧
      (world.proceed position call).calls = before ++ left ++ after ∧
      (world.proceed position call).log = world.log ++ notes := by
  obtain ⟨before, after, calls, rfl⟩ :
      ∃ before after, world.calls = before ++ call :: after ∧ before.length = position := by
    obtain ⟨inside, rfl⟩ := List.getElem?_eq_some_iff.1 found
    refine ⟨world.calls.take position, world.calls.drop (position + 1), ?_, ?_⟩
    · rw [← List.drop_eq_getElem_cons inside, List.take_append_drop]
    · rw [List.length_take, Nat.min_eq_left (Nat.le_of_lt inside)]
  have set (next : Call) : world.calls.set before.length next = before ++ [next] ++ after := by
    simp [calls]
  have erase : world.calls.eraseIdx before.length = before ++ [] ++ after := by
    simp [calls, List.eraseIdx_append_of_length_le]
  cases call with
  | enter input =>
    by_cases shut : world.engine.cancelled = true
    · simp only [proceed, if_pos shut]
      exact ⟨before, after, [], [], calls, .refuse shut, erase, (List.append_nil _).symm⟩
    · have isOpen : world.engine.cancelled = false := by simpa using shut
      cases input with
      | event event =>
        by_cases hosts :
            (event.withoutHostLinks world.engine.settings.hostMarker).isEmpty = true
        · simp only [proceed, if_neg shut, if_pos hosts]
          exact ⟨before, after, _, [], calls, .drop isOpen hosts, set _, (List.append_nil _).symm⟩
        · simp only [proceed, if_neg shut, if_neg hosts]
          refine ⟨before, after, _, [], calls, .pass isOpen ?_, set _, (List.append_nil _).symm⟩
          intro _ same
          cases same
          simpa using hosts
      | refresh =>
        simp only [proceed, if_neg shut]
        refine ⟨before, after, _, [], calls, .pass isOpen ?_, set _, (List.append_nil _).symm⟩
        intro _ same
        cases same
  | ignore event => exact ⟨before, after, [], [], calls, .ignore, erase, (List.append_nil _).symm⟩
  | queue input =>
    cases input with
    | event event => exact ⟨before, after, _, _, calls, .queueEvent, set _, rfl⟩
    | refresh =>
      have receive : (world.proceed before.length (.queue .refresh)).engine =
          world.engine.receive .refresh := by
        simp [proceed, move, accept, Engine.receive, Input.changes]
      exact ⟨before, after, _, _, calls, receive ▸ .queueRefresh, set _, rfl⟩
  | count event => exact ⟨before, after, _, [], calls, .count, set _, (List.append_nil _).symm⟩
  | wake input => exact ⟨before, after, [], [], calls, .wake, erase, (List.append_nil _).symm⟩

/-- What is left of a call takes its place in every count of the calls. -/
theorem countP_calls {next : World σ} {before after left : List Call}
    (calls : world.calls = before ++ call :: after) (calls' : next.calls = before ++ left ++ after)
    (isMeant : Call → Bool) :
    next.calls.countP isMeant + [call].countP isMeant =
      world.calls.countP isMeant + left.countP isMeant := by
  rw [calls, calls', List.append_cons]
  simp only [List.countP_append]
  omega

theorem answers_proceed :
    (world.proceed position call).answers =
      world.answers ++ call.reply world.engine.cancelled := by
  cases call with
  | enter input =>
    simp only [proceed, Call.reply]
    split
    · rfl
    · cases input with
      | event event =>
        simp only
        split <;> simp [move]
      | refresh => simp [move]
  | queue input => cases input <;> simp [proceed, move, accept, Call.reply]
  | count => simp [proceed, move, Call.reply]
  | ignore | wake => rfl

/-! ## What came in and what is owed -/

/-- The changes that the calls have still to bring into the slot. -/
def owed (world : World σ) : List LinkChange :=
  world.calls.flatMap (Call.owed world.engine.settings.hostMarker)

/-- The changes that came into the slot, and those that are about to. -/
def history (world : World σ) : List LinkChange :=
  Input.allChanges world.engine.settings.hostMarker world.log.accepted ++ world.owed

/-- How many of the calls under way report events. -/
def reports (world : World σ) : Nat := world.calls.countP Call.isReport

/-- Where no event is being reported, nothing is owed. -/
theorem flatMap_owed_of_countP {calls : List Call} {marker : String}
    (none : calls.countP Call.isReport = 0) : calls.flatMap (Call.owed marker) = [] := by
  refine List.flatMap_eq_nil_iff.2 fun call inside => Call.owed_of_not_isReport ?_
  simpa using List.countP_eq_zero.1 none call inside

/-- A call that goes on brings into the slot what it owes. With a single event
under way no other call owes anything, so the order is kept. -/
theorem history_proceed (found : world.calls[position]? = some call)
    (isOpen : world.engine.cancelled = false) (single : world.reports ≤ 1) :
    (world.proceed position call).history = world.history ∧
      (world.proceed position call).reports ≤ world.reports := by
  obtain ⟨before, after, left, notes, calls, part, calls', log'⟩ := exists_section found
  have owes := part.owed_eq isOpen
  have kind := part.countP_isReport_le
  have count := countP_calls calls calls' Call.isReport
  have apart : call.isReport = true → before.countP Call.isReport = 0 := by
    intro report
    rw [reports, calls, List.countP_append, List.countP_cons_of_pos report] at single
    omega
  constructor
  · rw [history, history, owed, owed, part.settings_eq.1, calls, calls', log']
    simp only [Log.accepted_append, Input.allChanges, List.flatMap_append, List.flatMap_cons,
      List.append_assoc] at owes ⊢
    by_cases report : call.isReport = true
    · rw [flatMap_owed_of_countP (apart report), List.nil_append, List.nil_append, ← owes,
        List.append_assoc]
    · have nothing : call.owed world.engine.settings.hostMarker = [] :=
        Call.owed_of_not_isReport (by simpa using report)
      rw [nothing, List.append_eq_nil_iff] at owes
      rw [owes.1, owes.2, nothing, List.nil_append, List.nil_append]
  · rw [reports, reports]
    simp only [List.countP_singleton] at count
    omega

variable [StatusStore σ] {act : Act σ}

theorem settings_step : (world.step act).engine.settings = world.engine.settings :=
  settings_run world [act]

/-- An act that begins no report changes neither what came in nor what is owed,
as long as a single report is under way and the engine is not shut down. -/
theorem history_step (isOpen : world.engine.cancelled = false) (single : world.reports ≤ 1)
    (silent : ∀ event, act ≠ .call (.event event)) :
    (world.step act).history = world.history ∧ (world.step act).reports ≤ world.reports := by
  cases act with
  | work =>
    have move := world.engine.move_work
    refine ⟨?_, Nat.le_refl _⟩
    simp only [history, owed, step, move.settings_eq, Log.accepted_append, move.accepted_eq,
      List.append_nil]
  | call input =>
    cases input with
    | event event => exact absurd rfl (silent event)
    | refresh =>
      refine ⟨?_, ?_⟩
      · simp [history, owed, step, Call.owed, Input.changes]
      · simp [reports, step, Call.isReport, Call.input]
  | proceed position =>
    simp only [step]
    split
    next found => exact history_proceed found isOpen single
    next => exact ⟨rfl, Nat.le_refl _⟩
  | halt =>
    simp only [step, Engine.halt]
    split <;> exact ⟨rfl, Nat.le_refl _⟩
  | elapse | shutdown | conclude | drop | cancel | inspect | beside => exact ⟨rfl, Nat.le_refl _⟩

/-- A report that begins is owed after all that went before. -/
theorem history_step_report {event : LinkEvent} :
    (world.step (.call (.event event))).history =
        world.history ++ (event.withoutHostLinks world.engine.settings.hostMarker).changes ∧
      (world.step (.call (.event event))).reports = world.reports + 1 := by
  constructor
  · simp [history, owed, step, Call.owed, Input.changes]
  · simp [reports, step, Call.isReport, Call.input]

/-- A shutdown is never taken back. -/
theorem cancelled_of_step (isOpen : (world.step act).engine.cancelled = false) :
    world.engine.cancelled = false := by
  cases act with
  | work => exact world.engine.move_work.cancelled_eq ▸ isOpen
  | proceed position =>
    simp only [step] at isOpen
    split at isOpen
    next found =>
      obtain ⟨_, _, _, _, _, part, _, _⟩ := exists_section found
      exact part.settings_eq.2 ▸ isOpen
    next => exact isOpen
  | halt =>
    simp only [step, Engine.halt] at isOpen
    split at isOpen <;> exact isOpen
  | shutdown | cancel => cases isOpen
  | elapse | call | conclude | drop | inspect | beside => exact isOpen

theorem cancelled_of_run {acts : List (Act σ)}
    (isOpen : (world.run acts).engine.cancelled = false) : world.engine.cancelled = false := by
  induction acts generalizing world with
  | nil => exact isOpen
  | cons act rest ih => exact cancelled_of_step (ih isOpen)

/-! ## Wake-ups -/

/-- Whatever waits for a worker that is parked and was not woken, some call is about
to wake it for that. -/
def Attended (world : World σ) : Prop :=
  world.engine.activity = .parked → world.engine.permit = false →
    ∀ input, world.log.unread.count input ≤ (Call.waking world.calls).count input

theorem Attended.step (attended : world.Attended) (paced : world.Paced) (act : Act σ) :
    (world.step act).Attended := by
  cases act with
  | work =>
    intro parked asleep input
    obtain ⟨notes, permit, before⟩ := world.engine.move_work.of_parked parked
    simp only [World.step, notes, List.append_nil]
    rcases before with before | empty
    · exact attended before (permit.symm.trans asleep) input
    · have none : world.log.unread = [] := by
        by_contra some
        have waiting := Log.waiting_iff.2 some
        rw [← paced.queued, empty] at waiting
        cases waiting
      rw [none]
      exact Nat.zero_le _
  | call input =>
    intro parked asleep other
    have kept := attended parked asleep other
    simpa [World.step, Call.waking, Call.isWaking] using kept
  | proceed position =>
    simp only [World.step]
    split
    next call found =>
      obtain ⟨before, after, left, notes, calls, part, calls', log'⟩ := exists_section found
      intro parked asleep input
      obtain ⟨asleep', activity, fresh, more⟩ := part.waking_le asleep input
      have kept := attended (activity.symm.trans parked) asleep' input
      rw [log', calls', Log.unread_append fresh]
      rw [calls, ← List.singleton_append] at kept
      simp only [Call.waking, List.filter_append, List.map_append, List.count_append] at kept more ⊢
      omega
    next => exact attended
  | halt =>
    simp only [World.step, Engine.halt]
    split
    next => exact fun parked => by cases parked
    next => exact attended
  | elapse | shutdown | conclude | drop | cancel | inspect | beside => exact attended

theorem attended_run (settings : Settings) (policy : RetryPolicy) (store : σ) (clock : Nat)
    (acts : List (Act σ)) : ((start settings policy store clock).run acts).Attended := by
  induction acts using List.reverseRecOn with
  | nil => exact fun parked => by cases parked
  | append_singleton acts act ih =>
    rw [run, List.foldl_append]
    exact ih.step (paced_run settings policy store clock acts) act

/-- A worker that is parked over a full slot is about to be woken. -/
def Woken (world : World σ) : Prop :=
  world.engine.activity = .parked → world.engine.pending.queued = true →
    world.engine.permit = true ∨ ∃ call ∈ world.calls, call.isWaking = true

theorem woken_run (settings : Settings) (policy : RetryPolicy) (store : σ) (clock : Nat)
    (acts : List (Act σ)) : ((start settings policy store clock).run acts).Woken := by
  intro parked queued
  have attended := attended_run settings policy store clock acts parked
  rw [(paced_run settings policy store clock acts).queued, Log.waiting_iff] at queued
  obtain ⟨input, waits⟩ := List.exists_mem_of_ne_nil _ queued
  by_contra none
  rw [not_or, Bool.not_eq_true] at none
  have some := Nat.lt_of_lt_of_le (List.count_pos_iff.2 waits) (attended none.1 input)
  obtain ⟨call, inside, -⟩ := List.mem_map.1 (List.count_pos_iff.1 some)
  exact none.2 ⟨call, List.mem_filter.1 inside⟩

omit [StatusStore σ] in
/-- A worker that waits with nothing to do, and that no call is about to wake,
has nothing queued. -/
theorem Woken.rests (woken : world.Woken) (idle : world.engine.isIdle = true)
    (quiet : ∀ call ∈ world.calls, call.isWaking = false) : world.Rests := by
  have parked := Engine.parked_of_isIdle idle
  refine ⟨parked, ?_⟩
  by_contra queued
  rcases woken parked (by simpa using queued) with permit | ⟨call, inside, waking⟩
  · simp [Engine.isIdle, parked, permit] at idle
  · rw [quiet call inside] at waking
    cases waking

end World

end LoopGuard
