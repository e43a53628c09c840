import LoopGuard.Proofs.Engine.LoopFree
import LoopGuard.Proofs.Engine.Pass

/-!
# Refreshes that repeat the last one

A commit writes the statuses that differ from their records, and settles what was
forced to discard. If nothing changes a link after it, every later refresh asks for the
statuses that are recorded already (`Ledger.Fulfilled`): it writes nothing whether or
not it commits, and it commits just if the store answers within its attempts
(`World.repeated_refresh_writes_nothing`).
-/

namespace LoopGuard

/-- The change adds links whose ids the table has already. -/
def LinkChange.Repeats (table : LinkTable) : LinkChange → Prop
  | .add links => ∀ link ∈ links, link.id ∈ table
  | .remove _ => False

instance (table : LinkTable) : DecidablePred (LinkChange.Repeats table)
  | .add links => inferInstanceAs (Decidable (∀ link ∈ links, link.id ∈ table))
  | .remove _ => inferInstanceAs (Decidable False)

namespace LinkChange

variable {table : LinkTable} {change : LinkChange} {changes : List LinkChange}

/-- A repetition changes no link. -/
theorem Repeats.file_eq (repeats : change.Repeats table) : change.file table = table := by
  cases change with
  | remove => exact repeats.elim
  | add links =>
    refine Std.ExtTreeMap.ext_getElem? fun id => ?_
    rw [file, LinkTable.getElem?_addAll]
    cases filed : table[id]? with
    | some => rfl
    | none =>
      rw [Option.none_or, List.find?_eq_none]
      intro link mem same
      have known := repeats link mem
      rw [of_decide_eq_true same, Std.ExtTreeMap.mem_iff_isSome_getElem?, filed] at known
      cases known

/-- A repetition forces no port to discard. -/
theorem Repeats.releasedPorts_eq (repeats : change.Repeats table) : change.releasedPorts = [] := by
  cases change with
  | remove => exact repeats.elim
  | add => rfl

end LinkChange

namespace Ledger

variable {first ledger next : Ledger} {log : Log}

/-- No discard is owed, and the records are as the links ask for. -/
structure Fulfilled (ledger : Ledger) : Prop where
  forced : ledger.forced = ∅
  reconciled : ledger.reconciled = true
  recorded : ledger.target.Writes ledger.records ledger.records

/-- Writing what is recorded already changes nothing. -/
theorem Fulfilled.records_eq (fulfilled : ledger.Fulfilled) {records : StatusMap}
    (written : ledger.target.Writes ledger.records records) : records = ledger.records := by
  refine Std.ExtTreeMap.ext_getElem? fun port => ?_
  rw [written, ← fulfilled.recorded]

/-- A commit fulfils what the links ask for. -/
theorem Path.fulfilled (path : Path first log ledger) (settled : log.settled = true) :
    ledger.Fulfilled := by
  refine path.of_settled settled fun {ledger records} reconciled written =>
    ⟨rfl, reconciled, fun port => ?_⟩
  change records[port]? = _
  rw [getElem?_target]
  by_cases ends : Ends ledger.table.links port
  · rw [if_pos ends, getElem?_of_writes written ends, Option.or_self]
  · rw [if_neg ends, if_neg (by simp), Option.none_or]

/-- A note of a repetition leaves the ledger as it is, but for whether a refresh is in
progress. -/
theorem Entry.eq_of_repeats {note : Note} (entry : Entry ledger note next)
    (fulfilled : ledger.Fulfilled)
    (repeats : ∀ change ∈ Log.made [note], change.Repeats ledger.table) :
    next = { ledger with refreshing := next.refreshing } := by
  cases entry with
  | accepted | took | failed => rfl
  | made change =>
    have here : change.Repeats ledger.table := repeats change (by simp)
    simp [here.file_eq, here.releasedPorts_eq]
  | reviewed _ unread =>
    rw [fulfilled.reconciled] at unread
    cases unread
  | committed _ _ written => rw [fulfilled.records_eq written, ← fulfilled.forced]

theorem Path.eq_of_repeats (path : Path first log ledger) (fulfilled : first.Fulfilled)
    (repeats : ∀ change ∈ log.made, change.Repeats first.table) :
    ledger = { first with refreshing := ledger.refreshing } := by
  induction path with
  | nil => rfl
  | @concat log note ledger next _ entry ih =>
    simp only [Log.made_append, List.mem_append] at repeats
    have same := ih fun change mem => repeats change (.inl mem)
    have kept : ledger.Fulfilled :=
      same ▸ ⟨fulfilled.forced, fulfilled.reconciled, fulfilled.recorded⟩
    have table : ledger.table = first.table := by rw [same]
    have moved := entry.eq_of_repeats kept fun change mem => table ▸ repeats change (.inr mem)
    rw [moved, same]
  | @unnoticed log ledger records _ _ _ written ih =>
    have same := ih repeats
    have kept : ledger.Fulfilled :=
      same ▸ ⟨fulfilled.forced, fulfilled.reconciled, fulfilled.recorded⟩
    rw [kept.records_eq written]
    exact same

end Ledger

namespace Engine

variable {σ : Type} [StatusStore σ] {engine next : Engine σ} {notes : Log}

/-! ## What a commit writes -/

theorem Move.settled_of_commits (move : Move engine notes next) (commits : Log.commits notes ≠ 0) :
    Log.settled notes = true := by
  cases move with
  | settle => simp
  | commit => rfl
  | propose _ reading => exact absurd reading.stats_eq.2.1 commits
  | _ => exact absurd rfl commits

/-- A step that commits writes as many records as differ from what the refresh has
planned, and leaves none that does. -/
theorem Move.differing_of_commits [LawfulStore σ] [CountingStore σ] (move : Move engine notes next)
    (commits : Log.commits notes ≠ 0) :
    ∃ desired, engine.plan.1 = .ok desired ∧
      next.stats.written =
        engine.stats.written + (desired.differing (records engine.store)).length ∧
      desired.differing (records next.store) = [] := by
  cases move with
  | settle changing reading nothing =>
    refine ⟨∅, by rw [reading.plan_eq changing, nothing], ?_, ?_⟩
    · simp [succeed, remember, reading.stats_eq.1, StatusMap.differing]
    · simp [StatusMap.differing]
  | @commit desired number due outcome committing elapsed ok =>
    refine ⟨desired, by simp only [plan, committing], ?_, ?_⟩
    · simp [succeed, CountingStore.written_of_ok ok]
    · exact (LawfulStore.writes_of_ok ok).differing_eq_nil
  | propose _ reading => exact absurd reading.stats_eq.2.1 commits
  | _ => exact absurd rfl commits

/-- Where nothing differs, a step writes nothing. -/
theorem Move.written_of_fulfilled [LawfulStore σ] [CountingStore σ] (move : Move engine notes next)
    (faithful : engine.Faithful) (fulfilled : engine.ledger.Fulfilled) :
    next.stats.written = engine.stats.written := by
  cases move with
  | settle _ reading | propose _ reading =>
    simp [succeed, attempt, remember, reading.stats_eq.1]
  | @commit desired number due outcome committing elapsed ok =>
    obtain ⟨target, -⟩ := faithful.proposed desired (by simp [Engine.proposal, committing])
    have none : desired.differing (records engine.store) = [] :=
      target ▸ fulfilled.recorded.differing_eq_nil
    simp [succeed, CountingStore.written_of_ok ok, none]
  | _ => rfl

/-! ## Refreshes that change no link -/

omit [StatusStore σ] in
/-- Repetitions leave what a refresh looks at as it is. -/
theorem alike_changeAll (sound : engine.graph.Sound) {changes : List LinkChange}
    (repeats : ∀ change ∈ changes, change.Repeats engine.graph.table) :
    Alike (engine.changeAll changes) engine := by
  induction changes generalizing engine with
  | nil => exact ⟨⟨sound, sound⟩, rfl, rfl, rfl, rfl⟩
  | cons first later ih =>
    have here := repeats first List.mem_cons_self
    have table : (engine.change first later).graph.table = engine.graph.table := by
      rw [change, LinkChange.table_apply, here.file_eq]
    have forced : (engine.change first later).forced = engine.forced := by
      simp [change, here.releasedPorts_eq]
    have changed : (engine.change first later).graph.Sound := first.sound_apply sound
    have rest := ih changed fun change mem => table ▸ repeats change (List.mem_cons_of_mem _ mem)
    exact ⟨⟨rest.sound.1, sound⟩, rest.table.trans table, rest.forced.trans forced,
      rest.reconciled, rest.store⟩

/-- A refresh that takes repetitions only comes to the commit of what is desired
already. -/
theorem carryOut_take (sound : engine.graph.Sound) (reconciled : engine.reconciled = true)
    (repeats : ∀ change ∈ engine.pending.changes, change.Repeats engine.graph.table) :
    engine.take.carryOut = (engine.policy.write engine.desired engine.store).ending := by
  have taken : engine.take.graph.Sound := sound
  have alike : Alike (engine.take.changeAll engine.pending.changes) engine.take :=
    alike_changeAll taken repeats
  have plan : engine.take.plan = (.ok engine.desired, engine.store) := by
    have same : engine.take.plan = engine.take.survey := alike.survey_eq
    have read : engine.take.reconciled = true := reconciled
    rw [same, survey, if_pos read]
    rfl
  simp only [carryOut, plan]
  rfl

end Engine

namespace World

variable {σ : Type} [StatusStore σ] [LawfulStore σ] [CountingStore σ] {world : World σ}

theorem written_step_of_fulfilled (faithful : world.engine.Faithful)
    (fulfilled : world.engine.ledger.Fulfilled) (act : Act σ) :
    (world.step act).engine.stats.written = world.engine.stats.written := by
  cases act with
  | work => exact world.engine.move_work.written_of_fulfilled faithful fulfilled
  | proceed position =>
    simp only [step]
    split
    next found =>
      obtain ⟨_, _, _, _, _, part, _, _⟩ := exists_section found
      exact part.worker_eq.2.2.2.2.2.1
    next => rfl
  | halt =>
    simp only [step, Engine.halt]
    split <;> rfl
  | elapse | call | shutdown | conclude | drop | cancel | inspect | beside => rfl

/-- What was made of the graph since then. -/
def madeSince (first world : World σ) : List LinkChange :=
  world.log.made.drop first.log.made.length

omit [StatusStore σ] [LawfulStore σ] [CountingStore σ] in
theorem madeSince_eq {after : World σ} {notes : Log} (log : after.log = world.log ++ notes) :
    world.madeSince after = Log.made notes := by
  rw [madeSince, log, Log.made_append, List.drop_left]

/-- As long as nothing but repetitions is made of the graph, neither the ledger nor the
count of what was written moves. -/
theorem repeats_run {later : List (Act σ)} (faithful : world.engine.Faithful)
    (fulfilled : world.engine.ledger.Fulfilled) (sole : SoleWriter later)
    (repeats : ∀ change ∈ world.madeSince (world.run later),
      change.Repeats world.engine.graph.table) :
    (world.run later).engine.ledger =
        { world.engine.ledger with refreshing := (world.run later).engine.isRefreshing } ∧
      (world.run later).engine.stats.written = world.engine.stats.written := by
  induction later using List.reverseRecOn with
  | nil => exact ⟨rfl, rfl⟩
  | append_singleton earlier act ih =>
    have sole' : SoleWriter earlier := fun effect mem => sole effect (List.mem_append_left _ mem)
    have last : SoleWriter [act] := fun effect mem => sole effect (List.mem_append_right _ mem)
    obtain ⟨faithful', notes, log, _⟩ := path_run faithful sole'
    obtain ⟨_, more, log', path⟩ := path_run faithful' last
    rw [run_append] at repeats ⊢
    rw [log, List.append_assoc] at log'
    simp only [madeSince_eq log', Log.made_append, List.mem_append] at repeats
    obtain ⟨ledger, written⟩ := ih sole' fun change mem =>
      repeats change (.inl (madeSince_eq log ▸ mem))
    have kept : (world.run earlier).engine.ledger.Fulfilled :=
      ledger ▸ ⟨fulfilled.forced, fulfilled.reconciled, fulfilled.recorded⟩
    have table : (world.run earlier).engine.ledger.table = world.engine.graph.table := by
      rw [ledger]
      rfl
    refine ⟨?_, (written_step_of_fulfilled faithful' kept act).trans written⟩
    have moved := path.eq_of_repeats kept fun change mem => table ▸ repeats change (.inr mem)
    rw [moved, ledger]
    rfl

/-- Records, links and the count of what was written are as they were. -/
structure Unchanged (first world : World σ) : Prop where
  records : records world.engine.store = records first.engine.store
  table : world.engine.graph.table = first.engine.graph.table
  written : world.engine.stats.written = first.engine.stats.written

theorem unchanged_run {later : List (Act σ)} (faithful : world.engine.Faithful)
    (fulfilled : world.engine.ledger.Fulfilled) (sole : SoleWriter later)
    (repeats : ∀ change ∈ world.madeSince (world.run later),
      change.Repeats world.engine.graph.table) :
    world.Unchanged (world.run later) := by
  obtain ⟨ledger, written⟩ := repeats_run faithful fulfilled sole repeats
  exact ⟨congrArg Ledger.records ledger, congrArg Ledger.table ledger, written⟩

omit [LawfulStore σ] [CountingStore σ] in
/-- A refresh makes of the graph what it has taken, and nothing else. -/
theorem mem_madeSince_of_take {now : World σ} (taking : now.engine.activity = .taking)
    {more : List (Act σ)} {change : LinkChange}
    (same : ((now.step .work).run more).log.starts = now.log.starts + 1)
    (mem : change ∈ world.madeSince ((now.step .work).run more)) :
    change ∈ world.madeSince now ∨ change ∈ now.engine.pending.changes := by
  have begun : (now.step .work).log.starts = now.log.starts + 1 := by
    simp [step, Engine.workNotes, taking]
  have taken : (now.step .work).handed = now.log.made ++ now.engine.pending.changes := by
    simp [handed, step, Engine.workNotes, Engine.work, taking, Engine.take, Engine.enter,
      Engine.inHand]
  have all := (handed_run (now.step .work) more).2.2 (same.trans begun.symm)
  rw [taken, handed] at all
  have mem : change ∈ (now.log.made ++ now.engine.pending.changes).drop world.log.made.length := by
    rw [← all, List.drop_append]
    exact List.mem_append_left _ mem
  rw [List.drop_append] at mem
  exact (List.mem_append.1 mem).imp_right List.mem_of_mem_drop

/-- A refresh that takes repetitions only can end, and ends as the commit of what is
desired already comes to. -/
theorem refresh_of_repeats {later : List (Act σ)} (faithful : world.engine.Faithful)
    (fulfilled : world.engine.ledger.Fulfilled) (sole : SoleWriter later)
    (repeats : ∀ change ∈ world.madeSince (world.run later),
      change.Repeats world.engine.graph.table)
    (taking : (world.run later).engine.activity = .taking)
    (slot : ∀ change ∈ (world.run later).engine.pending.changes,
      change.Repeats world.engine.graph.table) :
    let now := world.run later
    let written := now.engine.policy.write now.engine.desired now.engine.store
    (now.step .work).CanFinish (now.log.starts + 1) ∧
      ∀ more : List (Act σ), (∀ effect, Act.beside effect ∉ more) →
        let ended := (now.step .work).run more
        ended.log.starts = now.log.starts + 1 → ended.engine.isRefreshing = false →
          world.Unchanged ended ∧
          ended.log.commits = now.log.commits + written.result.isOk.toNat ∧
          ended.log.failures = now.log.failures + (!written.result.isOk).toNat := by
  intro now written
  have ledger := (repeats_run faithful fulfilled sole repeats).1
  have sound : now.engine.graph.Sound := (path_run faithful sole).1.sound
  have table : now.engine.graph.table = world.engine.graph.table := congrArg Ledger.table ledger
  have reconciled : now.engine.reconciled = true :=
    (congrArg Ledger.reconciled ledger).trans fulfilled.reconciled
  have take : (now.step .work).engine = now.engine.take := by
    simp only [step, Engine.work, now, taking]
  have notes : (now.step .work).log = now.log ++ [.took] := by
    simp only [step, Engine.workNotes, now, taking]
  have starts : (now.step .work).log.starts = now.log.starts + 1 := by simp [notes]
  have refreshing : (now.step .work).engine.isRefreshing = true := by
    rw [take]
    rfl
  have comes : (now.step .work).engine.carryOut = written.ending := by
    rw [take]
    exact Engine.carryOut_take sound reconciled (table ▸ slot)
  refine ⟨starts ▸ exists_finishing refreshing, ?_⟩
  intro more alone ended same rested
  have carried : (now.step .work).Carried ended :=
    carried_run alone (take ▸ sound) refreshing
  rcases carried.carried (same.trans starts.symm) with ⟨still, _⟩ | ⟨_, _, commits, failures⟩
  · cases still.symm.trans rested
  have whole : world.run (later ++ .work :: more) = ended := run_append world later _
  have sole' : SoleWriter (later ++ .work :: more) := by
    intro effect mem
    rcases List.mem_append.1 mem with mem | mem
    · exact sole effect mem
    · exact absurd (List.mem_of_ne_of_mem (by simp) mem) (alone effect)
  have unchanged : world.Unchanged (world.run (later ++ .work :: more)) := by
    refine unchanged_run faithful fulfilled sole' fun change mem => ?_
    rw [whole] at mem
    exact (mem_madeSince_of_take taking same mem).elim (repeats change) (slot change)
  rw [comes] at commits failures
  refine ⟨whole ▸ unchanged, ?_, ?_⟩
  · simpa [notes, Written.ending] using commits
  · simpa [notes, Written.ending] using failures

/-- A commit writes just the records that differ from what its refresh has planned, and
committing the same once more would write none. From then on, as long as nobody else
writes records and nothing but refresh requests and links with known ids come in, every
refresh leaves records and links as they are and writes nothing. It gets to its end by
itself, and commits if the store takes the desired statuses within the attempts of its
policy; else it fails. -/
theorem repeated_refresh_writes_nothing (settings : Settings) (policy : RetryPolicy) (store : σ)
    (clock : Nat) (acts : List (Act σ)) :
    let world := (start settings policy store clock).run acts
    let after := world.step .work
    world.log.commits < after.log.commits →
      (∃ desired, world.engine.plan.1 = .ok desired ∧
        after.engine.stats.written =
          world.engine.stats.written + (desired.differing (records world.engine.store)).length ∧
        desired.differing (records after.engine.store) = [] ∧
        ∀ outcome, (StatusStore.apply after.engine.store desired).1 = .ok outcome →
          outcome.written = 0) ∧
      ∀ later : List (Act σ), SoleWriter later →
        let now := after.run later
        (∀ change ∈ after.madeSince now, change.Repeats after.engine.graph.table) →
          after.Unchanged now ∧
          (now.engine.activity = .taking →
            (∀ change ∈ now.engine.pending.changes, change.Repeats after.engine.graph.table) →
            let begun := now.step .work
            let written := now.engine.policy.write now.engine.desired now.engine.store
            begun.CanFinish (now.log.starts + 1) ∧
            ∀ more : List (Act σ), (∀ effect, Act.beside effect ∉ more) →
              let ended := begun.run more
              ended.log.starts = now.log.starts + 1 → ended.engine.isRefreshing = false →
                after.Unchanged ended ∧
                ended.log.commits = now.log.commits + written.result.isOk.toNat ∧
                ended.log.failures = now.log.failures + (!written.result.isOk).toNat) := by
  intro world after committed
  have move : world.engine.Move world.engine.workNotes after.engine := world.engine.move_work
  have faithful : world.engine.Faithful := faithful_run settings policy store clock acts
  have commits : Log.commits world.engine.workNotes ≠ 0 := by
    have log : after.log.commits = world.log.commits + Log.commits world.engine.workNotes :=
      Log.commits_append
    omega
  have fulfilled : after.engine.ledger.Fulfilled :=
    (move.path faithful).fulfilled (move.settled_of_commits commits)
  obtain ⟨desired, plan, written, none⟩ := move.differing_of_commits commits
  refine ⟨⟨desired, plan, written, none, fun outcome ok => ?_⟩, ?_⟩
  · rw [CountingStore.written_of_ok ok, none]
    rfl
  intro later sole now repeats
  have faithful' : after.engine.Faithful := move.faithful faithful
  exact ⟨unchanged_run faithful' fulfilled sole repeats, fun taking slot =>
    refresh_of_repeats faithful' fulfilled sole repeats taking slot⟩

omit [StatusStore σ] [LawfulStore σ] [CountingStore σ] in
/-- Whether the worker is about to take the slot. -/
def takesNext (world : World σ) : Bool :=
  match world.engine.activity with
  | .taking => true
  | _ => false

omit [StatusStore σ] [LawfulStore σ] [CountingStore σ] in
theorem taking_of_takesNext (next : world.takesNext = true) : world.engine.activity = .taking := by
  unfold takesNext at next
  cases activity : world.engine.activity <;> simp_all

/-- The chain is about to be committed. -/
def chainCommitting : List (Act MemoryStore) :=
  Act.whole (.event chain) ++ List.replicate 5 .work

/-- The first link of the chain is reported once more, at other ports. -/
def chainAgain : LinkEvent where
  created := [⟨⟨"ab"⟩, .of "A" "7", .of "B" "8"⟩]

/-- After the commit a refresh is asked for and the known link is reported, until the
worker is about to take both. -/
def askedAgain : List (Act MemoryStore) :=
  .work :: Act.whole .refresh ++ Act.whole (.event chainAgain) ++ List.replicate 2 .work

/-- The chain's first commit writes four records, and the refresh that is asked for
after it commits without writing any. -/
theorem chain_again_writes_nothing :
    let world := (start ⟨0, 0, ""⟩ ⟨1, 0⟩ MemoryStore.empty 0).run chainCommitting
    let after := world.step .work
    let now := after.run askedAgain
    let ended := (now.step .work).run (List.replicate 3 .work)
    world.log.commits < after.log.commits ∧ SoleWriter askedAgain ∧
      (∀ change ∈ after.madeSince now, change.Repeats after.engine.graph.table) ∧
      now.engine.activity = .taking ∧ now.engine.pending.changes = chainAgain.changes ∧
      (∀ change ∈ now.engine.pending.changes, change.Repeats after.engine.graph.table) ∧
      ended.log.starts = now.log.starts + 1 ∧ ended.engine.isRefreshing = false ∧
      after.engine.stats.written = 4 ∧ after.Unchanged ended ∧ ended.log.commits = 2 := by
  have nothing := repeated_refresh_writes_nothing ⟨0, 0, ""⟩ ⟨1, 0⟩ MemoryStore.empty 0
    chainCommitting
  -- without the abbreviations, or the runs would be evaluated to compare them
  dsimp only at nothing ⊢
  refine ⟨?committed, ?sole, ?repeats, ?taking, ?taken, ?slot, ?first, ?rested, ?written,
    ((((nothing ?committed).2 askedAgain ?sole ?repeats).2 ?taking ?slot).2
      (List.replicate 3 .work) (by simp) ?first ?rested).1, ?commits⟩
  case sole => simp [SoleWriter, askedAgain, Act.whole]
  case taking => exact taking_of_takesNext (by decide +kernel)
  all_goals decide +kernel

/-- The store is out of reach for one application. -/
def outage (store : MemoryStore) : MemoryStore := store.failNext 1 (.connection "down")

/-- After the commit the store goes down, and a refresh is asked for. -/
def askedInOutage : List (Act MemoryStore) :=
  .work :: .beside outage :: Act.whole .refresh ++ List.replicate 2 .work

/-- Over a store that is out of reach, the refresh that nobody has given anything new
does not commit. -/
theorem repeated_refresh_fails_in_outage :
    let world := (start ⟨0, 0, ""⟩ ⟨1, 0⟩ MemoryStore.empty 0).run chainCommitting
    let after := world.step .work
    let now := after.run askedInOutage
    let ended := (now.step .work).run (List.replicate 2 .work)
    world.log.commits < after.log.commits ∧ SoleWriter askedInOutage ∧
      after.madeSince now = [] ∧ now.engine.activity = .taking ∧
      now.engine.pending.changes = [] ∧ ended.log.starts = now.log.starts + 1 ∧
      ended.engine.isRefreshing = false ∧ ended.log.commits = after.log.commits ∧
      ended.log.failures = after.log.failures + 1 := by
  intro world after now ended
  have sole : SoleWriter askedInOutage := by
    intro effect mem
    obtain rfl : effect = outage := by simpa [askedInOutage, Act.whole] using mem
    exact fun _ => rfl
  have taking : now.engine.activity = .taking := taking_of_takesNext (by decide +kernel)
  refine ⟨?committed, sole, ?made, taking, ?slot, ?first, ?rested, ?commits, ?failures⟩
  all_goals decide +kernel

end World

end LoopGuard
