import LoopGuard.Engine.Clock

/-!
# Runs of an engine with its callers

A `World` is an engine, the calls that callers have begun and not finished, and
what happened so far. An `Act` is one thing that happens next, chosen freely: a
step of the worker or of a call, time that passes, a look at the graph, the owner
who lets go of the engine, or something that happens to the store beside the
engine. A call takes several acts, between which the worker and other calls may
come in; carried out in one go it is `Engine.submit` or `Engine.requestRefresh`
(`World.run_submit`, `World.run_requestRefresh`).

A shutdown call (`Closing`) tells the engine first. Then it takes the handle of
the worker and waits for the worker's end, unless another call has taken the
handle already: then it returns at once. Its caller may drop it while it waits,
and the handle is lost with it.

The log holds what matters to the fabric, in order: which inputs came into the
slot, when the worker took it, each change of the graph, the one reading of the
records, and how each refresh ended.
-/

namespace LoopGuard

/-- What a caller hands to the engine. -/
inductive Input where
  | event (event : LinkEvent)
  | refresh
deriving DecidableEq, Repr

/-- The changes that an input asks for. -/
def Input.changes (marker : String) : Input → List LinkChange
  | .event reported => (reported.withoutHostLinks marker).changes
  | .refresh => []

/-- A call between two of its sections. -/
inductive Call where
  /-- Looks whether the engine is shut down. -/
  | enter (input : Input)
  /-- Is about to be counted as an event without links of the fabric. -/
  | ignore (event : LinkEvent)
  /-- Is about to come into the slot. -/
  | queue (input : Input)
  /-- Is about to be counted as an event. -/
  | count (event : LinkEvent)
  /-- Is about to wake the worker. -/
  | wake (input : Input)
deriving DecidableEq, Repr

/-- A call that shuts the engine down. -/
inductive Closing where
  /-- Has told the engine, and goes for the handle of the worker next. -/
  | told
  /-- Took the handle, and waits for the worker to end. -/
  | waiting
  /-- Has returned, and may have waited for the worker to end. -/
  | returned (waited : Bool)
  /-- Was dropped by its caller while it waited. -/
  | dropped
deriving DecidableEq, Repr

namespace Closing

/-- The next section of the call. -/
def next {σ : Type} (engine : Engine σ) : Closing → Closing
  | .told => if engine.handle then .waiting else .returned false
  | .waiting => if engine.isStopped then .returned true else .waiting
  | other => other

/-- A call can be dropped only while it waits. -/
def drop : Closing → Closing
  | .waiting => .dropped
  | other => other

end Closing

/-- What happened. -/
inductive Note where
  /-- The input came into the slot. -/
  | accepted (input : Input)
  /-- The worker took the slot, which starts a refresh. -/
  | took
  /-- The worker made a change of the graph. -/
  | made (change : LinkChange)
  /-- The worker read the records while the graph had these links. -/
  | reviewed (recorded : StatusMap) (links : List Link)
  /-- A refresh ended with its statuses recorded. -/
  | committed
  /-- A refresh ended without them. -/
  | failed

abbrev Log := List Note

namespace Log

/-- The inputs that came into the slot. -/
def accepted (log : Log) : List Input :=
  log.filterMap fun | .accepted input => some input | _ => none

def made (log : Log) : List LinkChange :=
  log.filterMap fun | .made change => some change | _ => none

/-- The records that were read. -/
def readings (log : Log) : List StatusMap :=
  log.filterMap fun | .reviewed recorded _ => some recorded | _ => none

/-- How many refreshes started. -/
def starts (log : Log) : Nat :=
  log.countP fun | .took => true | _ => false

/-- How many refreshes have committed. -/
def commits (log : Log) : Nat :=
  log.countP fun | .committed => true | _ => false

/-- How many refreshes have failed. -/
def failures (log : Log) : Nat :=
  log.countP fun | .failed => true | _ => false

/-- Whether the last refresh that started has committed. -/
def settled (log : Log) : Bool :=
  log.foldl (fun settled note => match note with
    | .took => false
    | .committed => true
    | _ => settled) false

/-- Whether an input came into the slot since a refresh started. -/
def waiting (log : Log) : Bool :=
  log.foldl (fun waiting note => match note with
    | .accepted _ => true
    | .took => false
    | _ => waiting) false

/-- The inputs that came into the slot since a refresh started. -/
def unread (log : Log) : List Input :=
  log.foldl (fun unread note => match note with
    | .accepted input => unread ++ [input]
    | .took => []
    | _ => unread) []

/-- Whether the last refresh has failed and none has started since. -/
def lapsed (log : Log) : Bool :=
  log.foldl (fun lapsed note => match note with
    | .took | .committed => false
    | .failed => true
    | _ => lapsed) false

/-- What happened since the last commit. -/
def sinceCommit (log : Log) : Log :=
  log.foldl (fun recent note => match note with
    | .committed => []
    | note => recent ++ [note]) []

variable {log notes : Log}

@[simp]
theorem accepted_append : accepted (log ++ notes) = log.accepted ++ accepted notes :=
  List.filterMap_append

@[simp]
theorem made_append : made (log ++ notes) = log.made ++ made notes :=
  List.filterMap_append

@[simp]
theorem accepted_singleton {note : Note} :
    accepted [note] = match note with | .accepted input => [input] | _ => [] := by
  cases note <;> rfl

@[simp]
theorem made_singleton {note : Note} :
    made [note] = match note with | .made change => [change] | _ => [] := by
  cases note <;> rfl

@[simp]
theorem readings_append : readings (log ++ notes) = log.readings ++ readings notes :=
  List.filterMap_append

@[simp]
theorem readings_singleton {note : Note} :
    readings [note] = match note with | .reviewed recorded _ => [recorded] | _ => [] := by
  cases note <;> rfl

@[simp]
theorem starts_singleton {note : Note} :
    starts [note] = match note with | .took => 1 | _ => 0 := by
  cases note <;> rfl

@[simp]
theorem starts_append : starts (log ++ notes) = log.starts + starts notes :=
  List.countP_append

@[simp]
theorem commits_singleton {note : Note} :
    commits [note] = match note with | .committed => 1 | _ => 0 := by
  cases note <;> rfl

@[simp]
theorem commits_append : commits (log ++ notes) = log.commits + commits notes :=
  List.countP_append

@[simp]
theorem failures_singleton {note : Note} :
    failures [note] = match note with | .failed => 1 | _ => 0 := by
  cases note <;> rfl

@[simp]
theorem failures_append : failures (log ++ notes) = log.failures + failures notes :=
  List.countP_append

@[simp]
theorem settled_concat {note : Note} :
    settled (log ++ [note]) =
      match note with
      | .took => false
      | .committed => true
      | _ => log.settled := by
  simp only [settled, List.foldl_append, List.foldl_cons, List.foldl_nil]

@[simp]
theorem waiting_concat {note : Note} :
    waiting (log ++ [note]) =
      match note with
      | .accepted _ => true
      | .took => false
      | _ => log.waiting := by
  simp only [waiting, List.foldl_append, List.foldl_cons, List.foldl_nil]

@[simp]
theorem unread_concat {note : Note} :
    unread (log ++ [note]) =
      match note with
      | .accepted input => log.unread ++ [input]
      | .took => []
      | _ => log.unread := by
  simp only [unread, List.foldl_append, List.foldl_cons, List.foldl_nil]

@[simp]
theorem lapsed_concat {note : Note} :
    lapsed (log ++ [note]) =
      match note with
      | .took | .committed => false
      | .failed => true
      | _ => log.lapsed := by
  simp only [lapsed, List.foldl_append, List.foldl_cons, List.foldl_nil]

@[simp]
theorem sinceCommit_concat {note : Note} :
    sinceCommit (log ++ [note]) =
      match note with
      | .committed => []
      | note => log.sinceCommit ++ [note] := by
  simp only [sinceCommit, List.foldl_append, List.foldl_cons, List.foldl_nil]

end Log

/-- An engine, its callers and what happened so far. -/
structure World (σ : Type) where
  engine : Engine σ
  /-- The calls that are under way. -/
  calls : List Call := []
  /-- The shutdown calls that were begun, in their order. -/
  closings : List Closing := []
  /-- The inputs of the calls that returned, with their results. -/
  answers : List (Input × Except GuardError Unit) := []
  log : Log := []

/-- One thing that happens. -/
inductive Act (σ : Type) where
  | work
  /-- The worker stops, if it notices a shutdown. -/
  | halt
  | elapse (span : Nat)
  /-- A caller begins a call. -/
  | call (input : Input)
  /-- The call at this position goes on. -/
  | proceed (position : Nat)
  /-- A caller begins to shut the engine down. -/
  | shutdown
  /-- This shutdown call goes on. -/
  | conclude (number : Nat)
  /-- The caller of this shutdown call drops it. -/
  | drop (number : Nat)
  /-- The owner lets go of the engine. -/
  | cancel
  /-- Someone asks for the spanning forest. -/
  | inspect
  | beside (effect : σ → σ)

/-- A call that nothing comes in between, when no other is under way. -/
def Act.whole {σ : Type} (input : Input) : List (Act σ) :=
  .call input :: List.replicate 4 (.proceed 0)

/-! ## The worker's notes -/

namespace Engine

variable {σ : Type}

/-- How a refresh ended, for a worker that is about to leave it. -/
def ending (engine : Engine σ) : Log :=
  match engine.activity with
  | .finishing true => [.committed]
  | .finishing false => [.failed]
  | _ => []

variable [StatusStore σ]

/-- What a worker reads when it is done with the graph. -/
def reading (engine : Engine σ) : Log :=
  if engine.reconciled then []
  else
    match (StatusStore.recorded engine.store).1 with
    | .ok recorded => [.reviewed recorded engine.graph.allLinks]
    | .error _ => []

/-- What there is to note about the worker's next step. -/
def workNotes (engine : Engine σ) : Log :=
  match engine.activity with
  | .taking => [.took]
  | .changing (next :: _) => [.made next]
  | .changing [] => engine.reading ++ engine.work.ending
  | .committing .. => engine.work.ending
  | _ => []

end Engine

/-! ## Acts -/

namespace World

variable {σ : Type}

/-- An engine that starts, without callers. -/
def start (settings : Settings) (policy : RetryPolicy) (store : σ) (clock : Nat) : World σ :=
  { engine := .start settings policy store clock }

def move (world : World σ) (position : Nat) (next : Call) : World σ :=
  { world with calls := world.calls.set position next }

def answer (world : World σ) (position : Nat) (input : Input) (result : Except GuardError Unit) :
    World σ :=
  { world with
    calls := world.calls.eraseIdx position
    answers := world.answers ++ [(input, result)] }

def accept (world : World σ) (input : Input) : World σ :=
  { world with
    engine := match input with
      | .event event =>
        world.engine.enqueue (event.withoutHostLinks world.engine.settings.hostMarker)
      | .refresh => { world.engine with pending := world.engine.pending.markQueued }
    log := world.log ++ [.accepted input] }

/-- The next section of a call. -/
def proceed (world : World σ) (position : Nat) : Call → World σ
  | .enter input =>
    if world.engine.cancelled then world.answer position input (.error .shutdown)
    else
      match input with
      | .event event =>
        if (event.withoutHostLinks world.engine.settings.hostMarker).isEmpty then
          world.move position (.ignore event)
        else world.move position (.queue input)
      | .refresh => world.move position (.queue input)
  | .ignore event =>
    { world with engine := world.engine.countIgnored }.answer position (.event event) (.ok ())
  | .queue (.event event) => (world.accept (.event event)).move position (.count event)
  | .queue .refresh => (world.accept .refresh).move position (.wake .refresh)
  | .count event =>
    { world with engine := world.engine.countReceived }.move position (.wake (.event event))
  | .wake input => { world with engine := world.engine.wake }.answer position input (.ok ())

/-- The next section of a shutdown call. The first that goes for the handle takes it. -/
def conclude (world : World σ) (number : Nat) : World σ :=
  { world with
    engine :=
      { world.engine with
        handle := world.engine.handle && world.closings[number]? ≠ some .told }
    closings := world.closings.modify number (Closing.next world.engine) }

variable [StatusStore σ]

def step (world : World σ) : Act σ → World σ
  | .work =>
    { world with engine := world.engine.work, log := world.log ++ world.engine.workNotes }
  | .halt => { world with engine := world.engine.halt }
  | .elapse span =>
    { world with engine := { world.engine with clock := world.engine.clock + span } }
  | .call input => { world with calls := world.calls ++ [.enter input] }
  | .proceed position =>
    match world.calls[position]? with
    | some call => world.proceed position call
    | none => world
  | .shutdown =>
    { world with engine := world.engine.cancel, closings := world.closings ++ [.told] }
  | .conclude number => world.conclude number
  | .drop number => { world with closings := world.closings.modify number Closing.drop }
  | .cancel => { world with engine := world.engine.cancel }
  | .inspect =>
    { world with
      engine := { world.engine with graph := world.engine.graph.spanningForest.2 } }
  | .beside effect =>
    { world with engine := { world.engine with store := effect world.engine.store } }

def run (world : World σ) (acts : List (Act σ)) : World σ := acts.foldl step world

omit [StatusStore σ] in
private theorem eraseIdx_length {α : Type} (list : List α) (last : α) :
    (list ++ [last]).eraseIdx list.length = list := by
  simp [List.eraseIdx_append_of_length_le]

/-- A call that nothing comes in between is one submission. -/
theorem run_submit (world : World σ) (event : LinkEvent) :
    let after := world.run (.call (.event event) :: List.replicate 4 (.proceed world.calls.length))
    after.engine = (world.engine.submit event).2 ∧ after.calls = world.calls ∧
      after.answers = world.answers ++ [(.event event, (world.engine.submit event).1)] := by
  by_cases shut : world.engine.cancelled
  · simp [run, step, List.replicate, proceed, answer, Engine.submit, shut, eraseIdx_length]
  · by_cases hosts : (event.withoutHostLinks world.engine.settings.hostMarker).isEmpty
    · simp [run, step, List.replicate, proceed, answer, move, Engine.submit, shut, hosts,
        eraseIdx_length]
    · simp [run, step, List.replicate, proceed, answer, move, accept, Engine.submit, shut, hosts,
        eraseIdx_length]

/-- A call that nothing comes in between is one request. -/
theorem run_requestRefresh (world : World σ) :
    let after := world.run (.call .refresh :: List.replicate 3 (.proceed world.calls.length))
    after.engine = world.engine.requestRefresh.2 ∧ after.calls = world.calls ∧
      after.answers = world.answers ++ [(.refresh, world.engine.requestRefresh.1)] := by
  by_cases shut : world.engine.cancelled
  · simp [run, step, List.replicate, proceed, answer, Engine.requestRefresh, shut, eraseIdx_length]
  · simp [run, step, List.replicate, proceed, answer, move, accept, Engine.requestRefresh, shut,
      eraseIdx_length]

end World

/-! ## A small fabric -/

/-- A chain of three switches. -/
def chain : LinkEvent where
  created :=
    [⟨⟨"ab"⟩, .of "A" "1", .of "B" "1"⟩,
      ⟨⟨"bc"⟩, .of "B" "2", .of "C" "1"⟩]

/-- The first link of the chain goes away, reported at this port of `B`. -/
def cutAt (port : String) : LinkEvent where
  removed := [⟨⟨"ab"⟩, .of "A" "1", .of "B" port⟩]

end LoopGuard
