import LoopGuard.Proofs.Keyspace.Refinement
import LoopGuard.Proofs.Store.Lawful

/-!
# Record stores on an honest server

Faults may wait in a server. It is honest if a command that one of them strikes is
known to have failed: the connection ends, or an error line comes back. There a
session may fail at any of its requests, and leaves every keyspace as it was then;
what it gives otherwise is what it would have given without the faults
(`Session.Yields`).

So a record store on an honest server is a lawful store whose records are the statuses
in its keyspace, and an aborting one, provided that it is asked for well-formed ports
only: those are the ports that have a record key of their own. An `HonestStore` is such
a store, and refuses to write other ports.
-/

namespace LoopGuard.Keyspace

/-- Whoever has a command struck learns that it failed. -/
def Fault.isHonest (fault : Fault) : Bool :=
  match fault.reply with
  | none | some (.error _) => true
  | some _ => false

def Server.isHonest (server : Server) : Bool := server.faults.all Fault.isHonest

theorem Fault.all_isHonest_strike (command : CommandName) {faults : List Fault}
    (honest : faults.all Fault.isHonest = true) :
    (strike command faults).1.all Fault.isHonest = true ∧
      (strike command faults).2.all Fault.isHonest = true := by
  induction faults with
  | nil => exact ⟨rfl, rfl⟩
  | cons fault rest ih =>
    rw [List.all_cons, Bool.and_eq_true] at honest
    obtain ⟨here, honest⟩ := honest
    obtain ⟨struck, left⟩ := ih honest
    unfold strike
    split
    · split
      · exact ⟨here, honest⟩
      -- a fault that lets the command through only counts down
      · refine ⟨struck, ?_⟩
        simp only [Prod.map_snd, List.all_cons, Bool.and_eq_true]
        exact ⟨here, left⟩
    · exact ⟨struck, by simp [left, here]⟩

namespace Session

variable {α β : Type} {keyspaces : Std.ExtTreeMap Int Keyspace} {session : Session α}
  {next : α → Session β} {done : α → Std.ExtTreeMap Int Keyspace → Prop}
  {finished : β → Std.ExtTreeMap Int Keyspace → Prop} {right : α → Prop}
  {number : Int} {key field : String}

/-- From an honest server with these keyspaces the session leads to an honest one. If
it fails, the keyspaces are the same; its value, otherwise, and the keyspaces then are as
`done` says. -/
def Yields (keyspaces : Std.ExtTreeMap Int Keyspace) (session : Session α)
    (done : α → Std.ExtTreeMap Int Keyspace → Prop) : Prop :=
  ∀ server : Server, server.isHonest = true → server.keyspaces = keyspaces →
    (session server).2.isHonest = true ∧
      match (session server).1 with
      | .ok value => done value (session server).2.keyspaces
      | .error _ => (session server).2.keyspaces = keyspaces

/-- A session that changes no keyspace, and whose value is right. -/
abbrev Reads (keyspaces : Std.ExtTreeMap Int Keyspace) (session : Session α)
    (right : α → Prop) : Prop :=
  session.Yields keyspaces fun value after => after = keyspaces ∧ right value

theorem Yields.pure {value : α} (right : done value keyspaces) :
    Yields keyspaces (pure value) done := by
  rintro server honest rfl
  exact ⟨honest, right⟩

theorem Yields.throw {failure : Failure} : Yields keyspaces (throw failure) done := by
  rintro server honest rfl
  exact ⟨honest, rfl⟩

/-- The two ways in which a session on an honest server ends. -/
theorem Yields.ends {server : Server} (yields : session.Yields keyspaces done)
    (honest : server.isHonest = true) (same : server.keyspaces = keyspaces) :
    (∃ value after, session server = (.ok value, after) ∧ after.isHonest = true ∧
        done value after.keyspaces) ∨
      ∃ failure after, session server = (.error failure, after) ∧ after.isHonest = true ∧
        after.keyspaces = keyspaces := by
  obtain ⟨honest, kept⟩ := yields server honest same
  cases ended : session server with
  | mk outcome after =>
    rw [ended] at honest kept
    cases outcome with
    | ok value => exact .inl ⟨value, after, rfl, honest, kept⟩
    | error failure => exact .inr ⟨failure, after, rfl, honest, kept⟩

/-- What follows a reading starts from the same keyspaces. -/
theorem Reads.bind (reads : session.Reads keyspaces right)
    (later : ∀ value, right value → (next value).Yields keyspaces finished) :
    (session >>= next).Yields keyspaces finished := by
  intro server honest same
  rcases reads.ends honest same with ⟨value, after, ended, honest, kept, found⟩ |
      ⟨failure, after, ended, honest, kept⟩
  · rw [bind_of_ok ended]
    exact later value found after honest kept
  · rw [bind_of_error ended]
    exact ⟨honest, kept⟩

theorem Yields.bind_pure {result : α → β} (yields : session.Yields keyspaces done)
    (ok : ∀ value after, done value after → finished (result value) after) :
    (session >>= fun value => Pure.pure (result value)).Yields keyspaces finished := by
  intro server honest same
  rcases yields.ends honest same with ⟨value, after, ended, honest, kept⟩ |
      ⟨failure, after, ended, honest, kept⟩
  · rw [bind_of_ok ended]
    exact ⟨honest, ok value _ kept⟩
  · rw [bind_of_error ended]
    exact ⟨honest, kept⟩

theorem Yields.tryCatch {handle : Failure → Session α} (yields : session.Yields keyspaces done)
    (handled : ∀ failure, (handle failure).Yields keyspaces done) :
    (tryCatch session handle).Yields keyspaces done := by
  intro server honest same
  rcases yields.ends honest same with ⟨value, after, ended, honest, kept⟩ |
      ⟨failure, after, ended, honest, kept⟩
  · rw [tryCatch_of_ok ended]
    exact ⟨honest, kept⟩
  · rw [tryCatch_of_error ended]
    exact handled failure after honest kept

/-- Readings one after the other give what they would give without faults. -/
theorem Reads.foldlM {step : β → α → Session β} {value : β → α → β} {list : List α}
    (reads : ∀ b a, (step b a).Reads keyspaces (· = value b a)) {start : β} :
    (list.foldlM step start).Reads keyspaces (· = list.foldl value start) := by
  induction list generalizing start with
  | nil => exact .pure ⟨rfl, rfl⟩
  | cons a list ih =>
    rw [List.foldlM_cons, List.foldl_cons]
    exact (reads start a).bind fun _ same => same ▸ ih

/-- A request that a fault strikes has failed; every other one is answered. -/
theorem Yields.request {command : CommandName} {answer : Server → Reply × Server}
    {convert : Reply → Except Failure α}
    (refuses : ∀ line, convert (.error line) = .error (.ofLine line))
    (answers : ∀ server : Server, server.isHonest = true → server.keyspaces = keyspaces →
      (answer server).2.isHonest = true ∧
        match convert (answer server).1 with
        | .ok value => done value (answer server).2.keyspaces
        | .error _ => (answer server).2.keyspaces = keyspaces) :
    (request command answer convert).Yields keyspaces done := by
  intro server honest same
  obtain ⟨struck, left⟩ := Fault.all_isHonest_strike command honest
  unfold Session.request
  split
  next fault faults strikes =>
    rw [strikes] at struck left
    have known : fault.isHonest = true := by simpa using struck
    unfold Fault.isHonest at known
    split at known
    next lost =>
      rw [lost]
      exact ⟨left, same⟩
    next line refused =>
      rw [refused]
      simp only [refuses]
      exact ⟨left, same⟩
    next => cases known
  next faults passes =>
    rw [passes] at left
    exact answers { server with faults } left same

/-! ## Readings -/

theorem reads_keys {pattern : String} :
    (keys number pattern).Reads keyspaces
      (· = (keyspaces.getD number ∅).keysMatching pattern) := by
  refine .request (fun _ => rfl) ?_
  rintro server honest rfl
  refine ⟨honest, rfl, ?_⟩
  simp [Server.keyspace, Scalar.toText, Function.comp_def]

theorem reads_field? :
    (field? number key field).Reads keyspaces
      (· = (keyspaces.getD number ∅).held? key field) := by
  refine .request (fun _ => rfl) ?_
  rintro server honest rfl
  refine ⟨honest, ?_⟩
  unfold Server.answerField
  by_cases accepted : (server.keyspace number).HashOrAbsent key
  · rw [value?_of_hashOrAbsent accepted, ← Server.keyspace]
    cases (server.keyspace number).held? key field <;> exact ⟨rfl, rfl⟩
  · rw [value?_of_not_hashOrAbsent accepted]
    rfl

/-! ## Commits -/

/-- What the commit script leads to if it is carried out. -/
def Commits (keyspaces : Std.ExtTreeMap Int Keyspace) (number : Int) (field : String)
    (desired : List (String × String)) (after : Std.ExtTreeMap Int Keyspace) : Prop :=
  ∃ written keyspace, (keyspaces.getD number ∅).writeAll field desired = .ok (written, keyspace) ∧
    after = keyspaces.insert number keyspace

variable {desired : List (String × String)}

theorem yields_runScript :
    (runScript number field desired).Yields keyspaces
      fun _ => Commits keyspaces number field desired := by
  refine .request (fun _ => rfl) ?_
  rintro server honest rfl
  unfold Server.answerCommit
  split
  · split
    next written keyspace ok =>
      simp only [count_number]
      exact ⟨honest, written, keyspace, ok, rfl⟩
    next => exact ⟨honest, rfl⟩
  · exact ⟨honest, rfl⟩

theorem reads_loadScript : loadScript.Reads keyspaces fun _ => True := by
  refine .request (fun _ => rfl) ?_
  rintro server honest rfl
  exact ⟨honest, rfl, trivial⟩

/-- A commit that fails has changed nothing, even if it has taught the server the script. -/
theorem yields_commit :
    (commit number field desired).Yields keyspaces
      fun _ => Commits keyspaces number field desired := by
  refine .tryCatch yields_runScript fun failure => ?_
  split
  · exact reads_loadScript.bind fun _ _ => yields_runScript
  · exact .throw

end Session

namespace RecordStore

variable {store : RecordStore} {desired : StatusMap} {number : Int}
  {keyspaces : Std.ExtTreeMap Int Keyspace}

theorem statuses_congr {before after : RecordStore} (number : after.number = before.number)
    (same : after.server.keyspaces = before.server.keyspaces) :
    after.keyspace.statuses = before.keyspace.statuses := by
  rw [keyspace, keyspace, Server.keyspace, Server.keyspace, number, same]

theorem run_of_yields {α : Type} {session : Session α}
    {done : α → Std.ExtTreeMap Int Keyspace → Prop}
    (yields : session.Yields store.server.keyspaces done)
    (honest : store.server.isHonest = true) :
    (store.run session).2.server.isHonest = true ∧
      (∀ value, (store.run session).1 = .ok value →
        done value (store.run session).2.server.keyspaces) ∧
      ∀ error, (store.run session).1 = .error error →
        (store.run session).2.server.keyspaces = store.server.keyspaces := by
  rcases yields.ends honest rfl with ⟨value, after, ended, honest, kept⟩ |
      ⟨failure, after, ended, honest, kept⟩
  · simp only [run, Session.toStore, ended, Except.mapError]
    refine ⟨honest, fun _ same => Except.ok.inj same ▸ kept, ?_⟩
    intro _ same
    cases same
  · simp only [run, Session.toStore, ended, Except.mapError]
    refine ⟨honest, ?_, fun _ _ => kept⟩
    intro _ same
    cases same

theorem reads_readRecord {found : StatusMap} {key : String} :
    (readRecord number found key).Reads keyspaces
      (· = (keyspaces.getD number ∅).read found [key]) := by
  cases named : portOfKey? key with
  | none =>
    simp only [readRecord, named]
    refine .pure ⟨rfl, ?_⟩
    simp [Keyspace.read, record?, named]
  | some port =>
    obtain ⟨_, rfl⟩ := portOfKey?_eq_some_iff.1 named
    simp only [readRecord, named]
    refine Session.reads_field?.bind ?_
    rintro _ rfl
    have record : (keyspaces.getD number ∅).record? (recordKey port) =
        ((keyspaces.getD number ∅).status? port).map (port, ·) := by
      rw [record?, named, Option.bind_some]
    rw [Keyspace.read, List.filterMap, record, Keyspace.status?]
    cases ((keyspaces.getD number ∅).held? (recordKey port) statusField).bind
        PortStatus.ofText? with
    | none => exact .pure ⟨rfl, rfl⟩
    | some status => exact .pure ⟨rfl, rfl⟩

/-- Reading ends with the statuses on record, if it does not fail. -/
theorem reads_recordedSession :
    (recordedSession number).Reads keyspaces (· = (keyspaces.getD number ∅).statuses) := by
  refine Session.reads_keys.bind ?_
  rintro listed rfl
  rw [← read_of_perm (.refl _), Keyspace.read, insertMany_filterMap]
  exact Session.Reads.foldlM fun _ _ => reads_readRecord

theorem statuses_of_commits {after : Std.ExtTreeMap Int Keyspace}
    (commits : Session.Commits keyspaces number statusField (recordsOf desired) after)
    (formed : ∀ port ∈ desired, port.WellFormed) :
    (after.getD number ∅).statuses = (keyspaces.getD number ∅).statuses.overwrite
      (desired.differing (keyspaces.getD number ∅).statuses) := by
  obtain ⟨written, keyspace, ok, rfl⟩ := commits
  rw [Std.ExtTreeMap.getD_insert_self]
  refine Writes.statuses_eq formed ?_
  -- the script is carried out, so no key was in its way
  by_cases accepted : ∀ record ∈ recordsOf desired, (keyspaces.getD number ∅).HashOrAbsent record.1
  · obtain ⟨after, ok', writes⟩ := writeAll_of_hashOrAbsent (nodup_recordsOf formed) accepted
    obtain ⟨_, rfl⟩ := Prod.mk.inj (Except.ok.inj (ok.symm.trans ok'))
    exact writes
  · simp only [not_forall, exists_prop] at accepted
    exact nomatch ok.symm.trans (writeAll_of_not_hashOrAbsent accepted)

/-- An application that succeeds writes the statuses of well-formed ports, as the store in
memory does. -/
theorem yields_applySession :
    (applySession number desired).Yields keyspaces fun _ after =>
      (∀ port ∈ desired, port.WellFormed) →
        (after.getD number ∅).statuses = (keyspaces.getD number ∅).statuses.overwrite
          (desired.differing (keyspaces.getD number ∅).statuses) := by
  unfold applySession
  split
  next empty =>
    obtain rfl : desired = ∅ := Std.ExtTreeMap.isEmpty_iff.1 empty
    exact .pure fun _ => Std.ExtTreeMap.insertMany_nil.symm
  next => exact Session.yields_commit.bind_pure fun _ _ commits => statuses_of_commits commits

end RecordStore

/-! ## A lawful store -/

/-- A record store on an honest server. -/
structure HonestStore where
  raw : RecordStore
  honest : raw.server.isHonest = true

namespace HonestStore

/-- All ports have record keys of their own. -/
def Fits (desired : StatusMap) : Prop := ∀ port ∈ desired.keys, port.WellFormed

instance {desired : StatusMap} : Decidable (Fits desired) :=
  inferInstanceAs (Decidable (∀ port ∈ desired.keys, port.WellFormed))

theorem Fits.wellFormed {desired : StatusMap} (fits : Fits desired) (port : PortRef)
    (inside : port ∈ desired) : port.WellFormed :=
  fits port (Std.ExtTreeMap.mem_keys.2 inside)

/-- The failure to write a port that has no record key of its own. -/
def malformed : StoreError := .command "commit" "malformed port"

variable {store : HonestStore} {desired : StatusMap}

theorem applying (store : HonestStore) (desired : StatusMap) :
    let done := StatusStore.apply store.raw desired
    done.2.server.isHonest = true ∧
      (∀ outcome, done.1 = .ok outcome → (∀ port ∈ desired, port.WellFormed) →
        done.2.keyspace.statuses =
          store.raw.keyspace.statuses.overwrite (desired.differing store.raw.keyspace.statuses)) ∧
      ∀ error, done.1 = .error error → done.2.server.keyspaces = store.raw.server.keyspaces :=
  RecordStore.run_of_yields RecordStore.yields_applySession store.honest

theorem reading (store : HonestStore) :
    let done := StatusStore.recorded store.raw
    done.2.server.isHonest = true ∧
      (∀ statuses, done.1 = .ok statuses →
        done.2.server.keyspaces = store.raw.server.keyspaces ∧
          statuses = store.raw.keyspace.statuses) ∧
      ∀ error, done.1 = .error error → done.2.server.keyspaces = store.raw.server.keyspaces :=
  RecordStore.run_of_yields RecordStore.reads_recordedSession store.honest

instance : StatusStore HonestStore where
  latency store := StatusStore.latency store.raw
  apply store desired :=
    if Fits desired then
      let done := StatusStore.apply store.raw desired
      (done.1, ⟨done.2, (store.applying desired).1⟩)
    else (.error malformed, store)
  recorded store :=
    let done := StatusStore.recorded store.raw
    (done.1, ⟨done.2, store.reading.1⟩)

theorem apply_of_fits (fits : Fits desired) :
    StatusStore.apply store desired =
      ((StatusStore.apply store.raw desired).1,
        ⟨(StatusStore.apply store.raw desired).2, (store.applying desired).1⟩) :=
  if_pos fits

theorem apply_of_not_fits (malformed : ¬Fits desired) :
    StatusStore.apply store desired = (.error HonestStore.malformed, store) :=
  if_neg malformed

/-- A reading changes no keyspace, whether it fails or not. -/
theorem keyspaces_recorded (store : HonestStore) :
    (StatusStore.recorded store.raw).2.server.keyspaces = store.raw.server.keyspaces := by
  obtain ⟨_, ok, failed⟩ := store.reading
  cases ended : (StatusStore.recorded store.raw).1 with
  | ok statuses => exact (ok statuses ended).1
  | error error => exact failed error ended

theorem statuses_apply_of_error {error : StoreError}
    (ended : (StatusStore.apply store desired).1 = .error error) :
    (StatusStore.apply store desired).2.raw.keyspace.statuses = store.raw.keyspace.statuses := by
  by_cases fits : Fits desired
  · rw [apply_of_fits fits] at ended ⊢
    exact RecordStore.statuses_congr rfl ((store.applying desired).2.2 error ended)
  · rw [apply_of_not_fits fits]

instance : LawfulStore HonestStore where
  records store := store.raw.keyspace.statuses
  records_recorded store := RecordStore.statuses_congr rfl store.keyspaces_recorded
  eq_of_recorded {store found} ended := (store.reading.2.1 found ended).2
  writes_of_ok {store desired outcome} ok := by
    by_cases fits : Fits desired
    · rw [apply_of_fits fits] at ok ⊢
      intro port
      simp only
      rw [(store.applying desired).2.1 outcome ok fits.wellFormed]
      exact StatusMap.getElem?_overwrite_differing
    · rw [apply_of_not_fits fits] at ok
      cases ok
  writes_of_error ended := .inl (statuses_apply_of_error ended)

instance : AbortingStore HonestStore where
  records_of_error := statuses_apply_of_error

end HonestStore

end LoopGuard.Keyspace
