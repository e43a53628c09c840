import LoopGuard.Feed.Follow
import LoopGuard.Proofs.Engine.Calls
import LoopGuard.Proofs.Feed.Snapshot
import Mathlib.Data.List.Induction

/-!
# Runs of an engine with its feed

A `Fed` engine runs with a feed that reports to it. Polls come to any outcome and
at any time, except that the feed waits for the engine to take a report before it
polls again. Each run of the two is a run of the engine (`Fed.exists_acts_run`),
and polling as the daemon does is such a run (`Follower.run_acts`).
-/

namespace LoopGuard

variable {σ : Type}

/-- An engine with its callers, and the feed that reports to it. -/
structure Fed (σ : Type) where
  feed : LinkFeed
  world : World σ

/-- One thing that happens to a fed engine. -/
inductive FedAct (σ : Type) where
  /-- A poll comes to a table, or fails. -/
  | poll (outcome : Except StoreError LinkTable)
  | act (act : Act σ)

namespace Fed

/-- The feed notes a table and begins to report how it differs. -/
def learn [StatusStore σ] (fed : Fed σ) (current : LinkTable) : Fed σ :=
  let (event, feed) := fed.feed.advance current
  { feed, world := if event.isEmpty then fed.world else fed.world.step (.call (.event event)) }

variable [StatusStore σ]

/-- The feed does not poll while it reports. -/
def step (fed : Fed σ) : FedAct σ → Fed σ
  | .poll (.ok current) => if fed.world.reports = 0 then fed.learn current else fed
  | .poll (.error _) => fed
  | .act act => { fed with world := fed.world.step act }

def run (fed : Fed σ) (acts : List (FedAct σ)) : Fed σ := acts.foldl step fed

/-- A feed that has seen nothing, and an engine that starts. -/
def start (feed : LinkFeed) (settings : Settings) (policy : RetryPolicy) (store : σ)
    (clock : Nat) : Fed σ :=
  { feed := { feed with last := ∅ }, world := .start settings policy store clock }

variable {fed : Fed σ} {act : FedAct σ} {acts : List (FedAct σ)}

/-- What happens to a fed engine is a run of the engine, in which a poll begins at
most a call. -/
theorem exists_acts_step (fed : Fed σ) (act : FedAct σ) :
    ∃ more : List (Act σ), (fed.step act).world = fed.world.run more ∧
      ∀ effect, Act.beside effect ∈ more → act = .act (.beside effect) := by
  cases act with
  | act act =>
    refine ⟨[act], rfl, fun effect inside => ?_⟩
    rw [List.mem_singleton.1 inside]
  | poll outcome =>
    cases outcome with
    | error => exact ⟨[], rfl, fun _ inside => nomatch inside⟩
    | ok current =>
      simp only [Fed.step]
      split
      next =>
        simp only [Fed.learn]
        split
        next => exact ⟨[], rfl, fun _ inside => nomatch inside⟩
        next =>
          refine ⟨[.call (.event _)], rfl, fun effect inside => ?_⟩
          cases List.mem_singleton.1 inside
      next => exact ⟨[], rfl, fun _ inside => nomatch inside⟩

theorem run_concat : fed.run (acts ++ [act]) = (fed.run acts).step act := by
  rw [run, List.foldl_append]
  rfl

theorem exists_acts_run (fed : Fed σ) (acts : List (FedAct σ)) :
    ∃ all : List (Act σ), (fed.run acts).world = fed.world.run all ∧
      ∀ effect, Act.beside effect ∈ all → FedAct.act (.beside effect) ∈ acts := by
  induction acts using List.reverseRecOn with
  | nil => exact ⟨[], rfl, fun _ inside => nomatch inside⟩
  | append_singleton acts act ih =>
    obtain ⟨all, world, besides⟩ := ih
    obtain ⟨more, next, beside⟩ := exists_acts_step (fed.run acts) act
    refine ⟨all ++ more, ?_, fun effect inside => ?_⟩
    · rw [run_concat, next, world, World.run, World.run, World.run, List.foldl_append]
    · rcases List.mem_append.1 inside with earlier | last
      · exact List.mem_append_left _ (besides effect earlier)
      · exact List.mem_append_right _ (List.mem_singleton.2 (beside effect last).symm)

theorem cancelled_of_step (isOpen : (fed.step act).world.engine.cancelled = false) :
    fed.world.engine.cancelled = false := by
  obtain ⟨more, world, -⟩ := exists_acts_step fed act
  exact World.cancelled_of_run (world ▸ isOpen)

end Fed

/-! ## The daemon's feed -/

open Keyspace

namespace Follower

/-- The acts by which a follower polls: the server answers, the feed learns what
it answered, and a report that this leads to is made in one go. -/
def acts (follower : Follower) : List (FedAct RecordStore) :=
  let polled := follower.feed.fetch.toStore follower.engine.store.server
  .act (.beside fun store => { store with server := polled.2 }) :: .poll polled.1 ::
    List.replicate 4 (.act (.proceed 0))

/-- What a follower's poll comes to is keyed. -/
theorem keyed_of_mem_acts {follower : Follower} {table : LinkTable}
    (inside : FedAct.poll (.ok table) ∈ follower.acts) : table.Keyed := by
  have answered : (follower.feed.fetch.toStore follower.engine.store.server).1 = .ok table := by
    simpa [acts, eq_comm] using inside
  exact LinkFeed.keyed_of_toStore_fetch answered

theorem run_acts (follower : Follower) :
    let fed := Fed.run ⟨follower.feed, { engine := follower.engine }⟩ follower.acts
    fed.feed = follower.follow.feed ∧ fed.world.engine = follower.follow.engine ∧
      fed.world.calls = [] := by
  intro fed
  cases fetched : follower.feed.fetch.toStore follower.engine.store.server with
  | mk outcome server =>
    cases outcome with
    | error error =>
      have followed : follower.follow = follower.mapServer fun _ => server := by
        simp only [follow, LinkFeed.poll, fetched]
      simp only [fed, acts, fetched, followed]
      exact ⟨rfl, rfl, rfl⟩
    | ok current =>
      let event := follower.feed.last.changes current
      let seen := { follower.feed with last := current }
      let engine := (({ follower with feed := seen } : Follower).mapServer fun _ => server).engine
      have polled :
          follower.feed.poll follower.engine.store.server = (.ok event, seen, server) := by
        simp only [LinkFeed.poll, fetched]
        rfl
      have learned : fed = (Fed.learn ⟨follower.feed, { engine }⟩ current).run
          (List.replicate 4 (.act (.proceed 0))) := by
        simp only [fed, acts, fetched]
        rfl
      by_cases empty : event.isEmpty = true
      · have followed :
            follower.follow = { feed := seen, engine, stopped := follower.stopped } := by
          simp only [follow, polled, if_pos empty]
          rfl
        have nothing : Fed.learn ⟨follower.feed, { engine }⟩ current = ⟨seen, { engine }⟩ :=
          congrArg (Fed.mk seen) (if_pos empty)
        rw [learned, nothing, followed]
        exact ⟨rfl, rfl, rfl⟩
      · have followed : follower.follow.feed = seen ∧
            follower.follow.engine = (engine.submit event).2 := by
          simp only [follow, polled, if_neg empty]
          split
          next submitted => exact ⟨rfl, (congrArg Prod.snd submitted).symm⟩
          next submitted => exact ⟨rfl, (congrArg Prod.snd submitted).symm⟩
        have reported : Fed.learn ⟨follower.feed, { engine }⟩ current =
            ⟨seen, ({ engine } : World RecordStore).step (.call (.event event))⟩ :=
          congrArg (Fed.mk seen) (if_neg empty)
        obtain ⟨submitted, calls, -⟩ := World.run_submit { engine } event
        rw [learned, reported, followed.1, followed.2]
        exact ⟨rfl, submitted, calls⟩

end Follower
end LoopGuard
