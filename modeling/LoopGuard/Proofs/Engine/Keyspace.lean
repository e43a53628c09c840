import LoopGuard.Proofs.Engine.Frame
import LoopGuard.Proofs.Engine.Pass
import LoopGuard.Proofs.Keyspace.Honest

/-!
# Runs over a keyspace

A store may stand for another one, of which it is a view (`Carries`): what is done to
one is seen on the other, as long as the statuses to be written fit. Then a run over
the one is a run over the other (`World.step_mapStore`).

An honest record store refuses ports without a record key of their own. No refresh
writes such a port unless an event names it, so a run over a plain record store on an
honest server is the view of one over a lawful, aborting store
(`World.run_over_keyspace`), and whatever holds of the runs over those holds of it.
-/

namespace LoopGuard

/-- The second store does what the first one does, of which it is a view. -/
structure Carries {σ τ : Type} [StatusStore σ] [StatusStore τ] (fits : StatusMap → Prop)
    (view : σ → τ) : Prop where
  latency (store : σ) : StatusStore.latency (view store) = StatusStore.latency store
  recorded (store : σ) :
    StatusStore.recorded (view store) =
      ((StatusStore.recorded store).1, view (StatusStore.recorded store).2)
  apply (store : σ) {desired : StatusMap} : fits desired →
    StatusStore.apply (view store) desired =
      ((StatusStore.apply store desired).1, view (StatusStore.apply store desired).2)

namespace Engine

variable {σ τ : Type} {fits : StatusMap → Prop} {view : σ → τ} {engine : Engine σ}

/-- The same engine with the view of its store. -/
def mapStore (view : σ → τ) (engine : Engine σ) : Engine τ :=
  { engine with store := view engine.store }

theorem policy_mapStore : (engine.mapStore view).policy = engine.policy := rfl

theorem store_mapStore : (engine.mapStore view).store = view engine.store := rfl

theorem activity_mapStore : (engine.mapStore view).activity = engine.activity := rfl

theorem reconciled_mapStore : (engine.mapStore view).reconciled = engine.reconciled := rfl

theorem ending_mapStore : (engine.mapStore view).ending = engine.ending := rfl

theorem reconcile_mapStore {recorded : StatusMap} :
    (engine.mapStore view).reconcile recorded = (engine.reconcile recorded).mapStore view :=
  rfl

theorem halt_mapStore : (engine.mapStore view).halt = engine.halt.mapStore view := by
  unfold halt
  rw [apply_ite (mapStore view)]
  rfl

theorem check_mapStore : (engine.mapStore view).check = engine.check.mapStore view := by
  unfold check
  rw [apply_ite (mapStore view)]
  rfl

theorem endDelay_mapStore {pushes : Nat} :
    (engine.mapStore view).endDelay pushes = (engine.endDelay pushes).mapStore view := by
  unfold endDelay
  rw [apply_ite (mapStore view)]
  rfl

theorem finish_mapStore {committed : Bool} :
    (engine.mapStore view).finish committed = (engine.finish committed).mapStore view := by
  unfold finish
  rw [apply_ite (mapStore view)]
  rfl

variable [StatusStore σ] [StatusStore τ]

theorem attempt_mapStore (carries : Carries fits view) {desired : StatusMap} {number : Nat} :
    (engine.mapStore view).attempt desired number =
      (engine.attempt desired number).mapStore view := by
  rw [attempt, store_mapStore, carries.latency]
  rfl

theorem resolve_mapStore (carries : Carries fits view) :
    (engine.mapStore view).resolve = engine.resolve.mapStore view := by
  by_cases nothing : engine.desired = ∅
  · have nothing' : (engine.mapStore view).desired = ∅ := nothing
    rw [resolve_of_eq_empty nothing, resolve_of_eq_empty nothing']
    rfl
  · have something : (engine.mapStore view).desired ≠ ∅ := nothing
    rw [resolve_of_ne_empty nothing, resolve_of_ne_empty something]
    have attempted : (engine.remember.mapStore view).attempt engine.desired 1 = _ :=
      attempt_mapStore carries
    exact attempted

theorem review_mapStore (carries : Carries fits view) :
    (engine.mapStore view).review = engine.review.mapStore view := by
  unfold review
  rw [store_mapStore, carries.recorded, reconciled_mapStore]
  split
  · exact resolve_mapStore carries
  · cases StatusStore.recorded engine.store with
    | mk result store =>
      cases result with
      | ok recorded =>
        have resolved : (({ engine with store }.reconcile recorded).mapStore view).resolve = _ :=
          resolve_mapStore carries
        rw [← reconcile_mapStore] at resolved
        exact resolved
      | error error => rfl

theorem commit_mapStore (carries : Carries fits view) {desired : StatusMap} {number : Nat}
    (fitting : fits desired) :
    (engine.mapStore view).commit desired number =
      (engine.commit desired number).mapStore view := by
  unfold commit
  rw [store_mapStore, carries.apply engine.store fitting, policy_mapStore]
  cases StatusStore.apply engine.store desired with
  | mk result store =>
    cases result with
    | ok outcome => rfl
    | error error =>
      dsimp only
      rw [apply_ite (mapStore view)]
      rfl

/-- The statuses that a refresh is committing fit. -/
def Fitting (fits : StatusMap → Prop) (engine : Engine σ) : Prop :=
  ∀ desired, engine.proposal = some desired → fits desired

theorem work_mapStore (carries : Carries fits view) (fitting : engine.Fitting fits) :
    (engine.mapStore view).work = engine.work.mapStore view := by
  unfold work
  rw [activity_mapStore]
  cases activity : engine.activity with
  | checking => exact check_mapStore
  | parked =>
    dsimp only
    rw [apply_ite (mapStore view)]
    rfl
  | delaying pushes due =>
    dsimp only
    rw [endDelay_mapStore, apply_ite (mapStore view)]
    rfl
  | taking => rfl
  | changing changes =>
    cases changes with
    | nil => exact review_mapStore carries
    | cons next later => rfl
  | committing desired number due =>
    have fits : fits desired := fitting desired (by simp [proposal, activity])
    dsimp only
    rw [commit_mapStore carries fits, apply_ite (mapStore view)]
    rfl
  | pausing desired number due =>
    dsimp only
    rw [attempt_mapStore carries, apply_ite (mapStore view)]
    rfl
  | finishing committed => exact finish_mapStore
  | stopped => rfl

theorem workNotes_mapStore (carries : Carries fits view) (fitting : engine.Fitting fits) :
    (engine.mapStore view).workNotes = engine.workNotes := by
  unfold workNotes Engine.reading
  rw [activity_mapStore, work_mapStore carries fitting, ending_mapStore, store_mapStore,
    carries.recorded, reconciled_mapStore]
  rfl

end Engine

/-- The same act over a store that stands for another, when every effect is lifted. -/
def Act.lift {σ τ : Type} (lift : (τ → τ) → σ → σ) : Act τ → Act σ
  | .work => .work
  | .halt => .halt
  | .elapse span => .elapse span
  | .call input => .call input
  | .proceed position => .proceed position
  | .shutdown => .shutdown
  | .conclude number => .conclude number
  | .drop number => .drop number
  | .cancel => .cancel
  | .inspect => .inspect
  | .beside effect => .beside (lift effect)

namespace World

variable {σ τ : Type} {fits : StatusMap → Prop} {view : σ → τ} {world : World σ}

def mapStore (view : σ → τ) (world : World σ) : World τ where
  engine := world.engine.mapStore view
  calls := world.calls
  closings := world.closings
  answers := world.answers
  log := world.log

theorem proceed_mapStore {position : Nat} {call : Call} :
    (world.mapStore view).proceed position call = (world.proceed position call).mapStore view := by
  cases call with
  | enter input =>
    have cancelled : (world.mapStore view).engine.cancelled = world.engine.cancelled := rfl
    have settings : (world.mapStore view).engine.settings = world.engine.settings := rfl
    simp only [proceed, cancelled, settings]
    split
    · rfl
    · cases input with
      | event event =>
        simp only
        split <;> rfl
      | refresh => rfl
  | ignore event => rfl
  | queue input => cases input <;> rfl
  | count event => rfl
  | wake input => rfl

variable [StatusStore σ] [StatusStore τ]

/-- An act over the view leads to the view of what the act leads to. -/
theorem step_mapStore (carries : Carries fits view) (fitting : world.engine.Fitting fits)
    {lift : (τ → τ) → σ → σ} {act : Act τ}
    (lifts : ∀ effect, act = .beside effect →
      view (lift effect world.engine.store) = effect (view world.engine.store)) :
    (world.mapStore view).step act = (world.step (act.lift lift)).mapStore view := by
  cases act with
  | work =>
    simp only [step, Act.lift, mapStore, Engine.work_mapStore carries fitting,
      Engine.workNotes_mapStore carries fitting]
  | halt => simp only [step, Act.lift, mapStore, Engine.halt_mapStore]
  | proceed position =>
    have calls : (world.mapStore view).calls = world.calls := rfl
    simp only [step, Act.lift, calls]
    split
    · exact proceed_mapStore
    · rfl
  | beside effect =>
    simp only [step, Act.lift, mapStore, Engine.mapStore, lifts effect rfl]
  | elapse | call | shutdown | conclude | drop | cancel | inspect => rfl

end World

/-! ## Record stores -/

namespace Keyspace.HonestStore

theorem carries_raw : Carries Fits raw where
  latency _ := rfl
  recorded _ := rfl
  apply _ _ fits := by rw [apply_of_fits fits]

/-- An effect on the record store, where it leaves an honest server. -/
def lift (effect : RecordStore → RecordStore) (store : HonestStore) : HonestStore :=
  if honest : (effect store.raw).server.isHonest = true then ⟨effect store.raw, honest⟩ else store

/-- The effect leaves honest servers honest, and the statuses on record alone. -/
def Spares (effect : RecordStore → RecordStore) : Prop :=
  ∀ store : HonestStore, (effect store.raw).server.isHonest = true ∧
    (effect store.raw).keyspace.statuses = store.raw.keyspace.statuses

variable {effect : RecordStore → RecordStore}

theorem Spares.raw_lift (spares : Spares effect) (store : HonestStore) :
    (lift effect store).raw = effect store.raw := by
  rw [lift, dif_pos (spares store).1]

theorem Spares.keepsRecords (spares : Spares effect) : KeepsRecords (lift effect) := by
  intro store
  change (lift effect store).raw.keyspace.statuses = _
  rw [spares.raw_lift]
  exact (spares store).2

theorem soleWriter_lift {acts : List (Act RecordStore)}
    (spares : ∀ effect, Act.beside effect ∈ acts → Spares effect) :
    SoleWriter (acts.map (.lift lift)) := by
  intro _ among
  obtain ⟨act, inside, same⟩ := List.mem_map.1 among
  cases act with
  | beside effect =>
    cases same
    exact (spares effect inside).keepsRecords
  | _ => cases same

end Keyspace.HonestStore

namespace World

open Keyspace

section Runs

variable (settings : Settings) (policy : RetryPolicy) (clock : Nat)

/-- No refresh writes a port without a record key of its own, unless an event names it. -/
theorem fitting_run (store : HonestStore) {acts : List (Act HonestStore)} (sole : SoleWriter acts) :
    let world := (start settings policy store clock).run acts
    (∀ port, Input.Concerns settings.hostMarker world.log.accepted port → port.WellFormed) →
      world.engine.Fitting HonestStore.Fits := by
  intro world formed desired proposed port inside
  have source := concerns_or_recorded_of_proposal settings policy store clock sole desired proposed
    port (Std.ExtTreeMap.mem_keys.1 inside)
  rcases source with named | recorded
  · exact formed port named
  · exact Keyspace.wellFormed_of_mem_statuses recorded

variable {settings policy clock}

/-- The step lemma along a run: each act over the record store is one over the store that
it is the view of. -/
theorem run_eq_mapStore {store : HonestStore} {acts : List (Act RecordStore)}
    (spares : ∀ effect, Act.beside effect ∈ acts → HonestStore.Spares effect) :
    let world := (start settings policy store.raw clock).run acts
    (∀ port, Input.Concerns settings.hostMarker world.log.accepted port → port.WellFormed) →
      world = ((start settings policy store clock).run (acts.map (.lift HonestStore.lift))).mapStore
        HonestStore.raw := by
  induction acts using List.reverseRecOn with
  | nil => exact fun _ => rfl
  | append_singleton acts act ih =>
    intro world formed
    let before := (start settings policy store.raw clock).run acts
    let carried := (start settings policy store clock).run (acts.map (.lift HonestStore.lift))
    have spares' : ∀ effect, Act.beside effect ∈ acts → HonestStore.Spares effect :=
      fun effect inside => spares effect (List.mem_append_left _ inside)
    have last : world = before.step act := run_append _ acts [act]
    have turn : Turn anyEffect before world := last ▸ turn_step before fun _ _ => trivial
    obtain ⟨notes, log⟩ := turn.exists_log
    have formed' : ∀ port, Input.Concerns settings.hostMarker before.log.accepted port →
        port.WellFormed := by
      rintro port ⟨event, inside, named⟩
      refine formed port ⟨event, ?_, named⟩
      rw [log, Log.accepted_append]
      exact List.mem_append_left _ inside
    have same : before = carried.mapStore HonestStore.raw := ih spares' formed'
    have logs : carried.log = before.log := by rw [same]; rfl
    have fitting : carried.engine.Fitting HonestStore.Fits :=
      fitting_run settings policy clock store (HonestStore.soleWriter_lift spares') (logs ▸ formed')
    have step : (carried.mapStore HonestStore.raw).step act =
        (carried.step (act.lift HonestStore.lift)).mapStore HonestStore.raw := by
      refine step_mapStore HonestStore.carries_raw fitting fun effect beside => ?_
      exact (spares effect (by simp [beside])).raw_lift _
    rw [last, same, step, List.map_append, run_append]
    rfl

variable (settings policy clock)

/-- A run over a record store on an honest server is the view of a run over a lawful,
aborting store that only the engine writes, provided that whatever happens to the server
beside the engine spares the statuses on record, and that the ports of the accepted events
are well-formed. -/
theorem run_over_keyspace (store : HonestStore) (acts : List (Act RecordStore))
    (spares : ∀ effect, Act.beside effect ∈ acts → HonestStore.Spares effect) :
    let world := (start settings policy store.raw clock).run acts
    (∀ port, Input.Concerns settings.hostMarker world.log.accepted port → port.WellFormed) →
      ∃ lifted : List (Act HonestStore), SoleWriter lifted ∧
        world = ((start settings policy store clock).run lifted).mapStore HonestStore.raw :=
  fun formed => ⟨_, HonestStore.soleWriter_lift spares, run_eq_mapStore spares formed⟩

/-- From a commit until the next refresh starts, the record of every port at which a link
ends holds the word for the status that the spanning forest gives it. -/
theorem records_hold_resolved_statuses (store : HonestStore) (acts : List (Act RecordStore))
    (spares : ∀ effect, Act.beside effect ∈ acts → HonestStore.Spares effect) :
    let world := (start settings policy store.raw clock).run acts
    let links := world.engine.graph.allLinks
    (∀ port, Input.Concerns settings.hostMarker world.log.accepted port → port.WellFormed) →
      world.log.settled = true → ∀ port, Ends links port → ∃ status,
        (StatusMap.resolve links (.compute links))[port]? = some status ∧
          world.engine.store.keyspace.held? (recordKey port) statusField = some status.text := by
  intro world links formed settled port ends
  obtain ⟨lifted, sole, same⟩ := run_over_keyspace settings policy clock store acts spares formed
  let carried := (start settings policy store clock).run lifted
  have log : world.log = carried.log := congrArg World.log same
  have graph : world.engine.graph = carried.engine.graph := congrArg (·.engine.graph) same
  have stored : world.engine.store = carried.engine.store.raw := congrArg (·.engine.store) same
  have booked : carried.Booked { records := records store } :=
    booked_run settings policy store clock sole
  have agrees : carried.engine.ledger.Agrees := booked.path.agrees (log ▸ settled)
  have ends : Ends carried.engine.graph.allLinks port := graph ▸ ends
  obtain ⟨status, resolved⟩ := LinkTable.exists_status ends
  have recorded : carried.engine.store.raw.keyspace.statuses[port]? = some status :=
    (agrees port ends).trans resolved
  refine ⟨status, ?_, ?_⟩
  · simp only [links, graph]
    exact resolved
  · rw [stored]
    exact (Keyspace.getElem?_statuses_eq_some_iff.1 recorded).2

end Runs

/-- An empty database that loses its client at the first commit. -/
def lossy : HonestStore where
  raw.number := 6
  raw.server.faults := [{ command := .evalsha, reply := none }]
  honest := rfl

/-- The chain is recorded by the second refresh. -/
theorem chain_is_recorded_after_loss :
    let acts : List (Act RecordStore) := Act.whole (.event chain) ++ List.replicate 12 .work
    let world := (start ⟨0, 0, ""⟩ ⟨1, 0⟩ lossy.raw 0).run acts
    world.log.failures = 1 ∧ world.log.settled = true ∧
      (∀ port, Input.Concerns "" world.log.accepted port → port.WellFormed) ∧
      world.engine.store.keyspace.held? (recordKey (.of "B" "2")) statusField =
        some "forwarding" := by
  intro acts world
  have failed : world.log.failures = 1 := by decide +kernel
  have settled : world.log.settled = true := by decide +kernel
  have accepted : world.log.accepted = [.event chain] := by decide +kernel
  have formed : ∀ link ∈ chain.created ++ chain.removed, ∀ port ∈ link.endpoints,
      port.WellFormed := by decide +kernel
  have named : ∀ port, Input.Concerns "" world.log.accepted port → port.WellFormed := by
    rintro port ⟨event, inside, link, mem, -, here⟩
    rw [accepted, List.mem_singleton, Input.event.injEq] at inside
    exact formed link (inside ▸ mem) port here
  have spares : ∀ effect, Act.beside effect ∈ acts → HonestStore.Spares effect := by
    simp [acts, Act.whole]
  have ends : Ends world.engine.graph.allLinks (.of "B" "2") :=
    ⟨⟨⟨"bc"⟩, .of "B" "2", .of "C" "1"⟩, by decide +kernel, by decide⟩
  obtain ⟨status, resolved, held⟩ :=
    records_hold_resolved_statuses ⟨0, 0, ""⟩ ⟨1, 0⟩ 0 lossy acts spares named settled _ ends
  have forwarding : status = .forwarding := by
    refine Option.some.inj (resolved.symm.trans ?_)
    decide +kernel
  rw [forwarding] at held
  exact ⟨failed, settled, named, held⟩

end World

end LoopGuard
