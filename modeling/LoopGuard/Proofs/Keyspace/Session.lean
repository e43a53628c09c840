import LoopGuard.Keyspace.Server
import LoopGuard.Proofs.Keyspace.Hashes

/-!
# Sessions with a server that is well

With no fault waiting, each request is answered from the keyspace it is about.
A reading changes nothing on the server, and many readings one after the other end
with all their results or with the failure of one of them. A commit ends as the
script does, whether or not the server knew the script before; and the server knows
it then.
-/

namespace LoopGuard.Keyspace

namespace Session

variable {α β : Type} {session : Session α} {next : α → Session β} {server after : Server}
  {number : Int} {key field : String}

theorem bind_of_ok {value : α} (ok : session server = (.ok value, after)) :
    (session >>= next) server = next value after := by
  change ExceptT.bindCont next (session server).1 (session server).2 = _
  rw [ok]
  rfl

theorem bind_of_error {failure : Failure} (failed : session server = (.error failure, after)) :
    (session >>= next) server = (.error failure, after) := by
  change ExceptT.bindCont next (session server).1 (session server).2 = _
  rw [failed]
  rfl

/-- A session that succeeds has succeeded at every stage. -/
theorem bind_eq_ok {result : β} (ok : (session >>= next) server = (.ok result, after)) :
    ∃ value between, session server = (.ok value, between) ∧
      next value between = (.ok result, after) := by
  cases first : session server with
  | mk outcome between =>
    cases outcome with
    | ok value => exact ⟨value, between, rfl, (bind_of_ok first).symm.trans ok⟩
    | error failure => exact nomatch (bind_of_error first).symm.trans ok

theorem tryCatch_of_ok {value : α} {handle : Failure → Session α}
    (ok : session server = (.ok value, after)) :
    (tryCatch session handle) server = (.ok value, after) := by
  simp only [tryCatch, tryCatchThe, MonadExceptOf.tryCatch, ExceptT.tryCatch, ExceptT.mk, bind,
    StateT.bind, ok]
  rfl

theorem tryCatch_of_error {failure : Failure} {handle : Failure → Session α}
    (failed : session server = (.error failure, after)) :
    (tryCatch session handle) server = handle failure after := by
  simp only [tryCatch, tryCatchThe, MonadExceptOf.tryCatch, ExceptT.tryCatch, ExceptT.mk, bind,
    StateT.bind, failed]

section Folds

variable {step : β → α → Session β} {list : List α} {failure : Failure}

/-- A fold whose steps succeed and leave the server as it is ends with their results. -/
theorem foldlM_of_ok {value : β → α → β} {start : β}
    (ok : ∀ b, ∀ a ∈ list, step b a server = (.ok (value b a), server)) :
    list.foldlM step start server = (.ok (list.foldl value start), server) := by
  induction list generalizing start with
  | nil => rfl
  | cons a list ih =>
    rw [List.foldlM_cons, bind_of_ok (ok start a List.mem_cons_self), List.foldl_cons]
    exact ih fun b a inside => ok b a (.tail _ inside)

/-- A fold fails with the failure of the steps that fail, if there is one. -/
theorem foldlM_of_error {fine : α → Prop} {start : β}
    (ok : ∀ b, ∀ a ∈ list, fine a → ∃ value, step b a server = (.ok value, server))
    (failed : ∀ b, ∀ a ∈ list, ¬ fine a → step b a server = (.error failure, server))
    (one : ∃ a ∈ list, ¬ fine a) :
    list.foldlM step start server = (.error failure, server) := by
  induction list generalizing start with
  | nil => exact absurd one (by simp)
  | cons a list ih =>
    rw [List.foldlM_cons]
    by_cases here : fine a
    · rcases ok start a List.mem_cons_self here with ⟨value, ok'⟩
      rw [bind_of_ok ok']
      refine ih (fun b a inside => ok b a (.tail _ inside))
        (fun b a inside => failed b a (.tail _ inside)) ?_
      rcases one with ⟨other, inside, bad⟩
      cases inside with
      | head => exact absurd here bad
      | tail _ inside => exact ⟨other, inside, bad⟩
    · exact bind_of_error (failed start a List.mem_cons_self here)

end Folds

theorem request_eq {command : CommandName} {answer : Server → Reply × Server}
    {convert : Reply → Except Failure α} (well : server.faults = []) :
    request command answer convert server = (convert (answer server).1, (answer server).2) := by
  simp only [request, well, Fault.strike]
  rw [← well]

/-! ## Readings -/

theorem keys_eq {pattern : String} (well : server.faults = []) :
    keys number pattern server = (.ok ((server.keyspace number).keysMatching pattern), server) := by
  rw [keys, request_eq well]
  simp [Server.answerKeys, Reply.texts, Scalar.toText, Function.comp_def]

theorem field?_of_hashOrAbsent (well : server.faults = [])
    (accepted : (server.keyspace number).HashOrAbsent key) :
    field? number key field server = (.ok ((server.keyspace number).held? key field), server) := by
  rw [field?, request_eq well, Server.answerField, value?_of_hashOrAbsent accepted]
  cases (server.keyspace number).held? key field <;> rfl

theorem field?_of_not_hashOrAbsent (well : server.faults = [])
    (refused : ¬ (server.keyspace number).HashOrAbsent key) :
    field? number key field server = (.error (.ofLine Server.wrongTypeLine), server) := by
  rw [field?, request_eq well, Server.answerField, value?_of_not_hashOrAbsent refused]
  rfl

theorem pairs_flatMap (entries : List (String × String)) :
    Reply.pairs (entries.flatMap fun (field, value) => [.text field, .text value]) =
      .ok entries := by
  induction entries with
  | nil => rfl
  | cons entry entries ih =>
    rw [List.flatMap_cons, List.cons_append, List.cons_append, List.nil_append, Reply.pairs, ih]
    rfl

theorem ofList_toList (fields : Fields) : Std.ExtTreeMap.ofList fields.toList = fields := by
  refine Std.ExtTreeMap.ext_getElem? fun name => ?_
  cases held : fields[name]? with
  | some value =>
    exact Std.ExtTreeMap.getElem?_ofList_of_mem Std.ReflCmp.compare_self
      Std.ExtTreeMap.distinct_keys_toList (Std.ExtTreeMap.mem_toList_iff_getElem?_eq_some.2 held)
  | none =>
    refine Std.ExtTreeMap.getElem?_ofList_of_contains_eq_false ?_
    have absent : name ∉ fields := by simp [Std.ExtTreeMap.mem_iff_isSome_getElem?, held]
    rw [Std.ExtTreeMap.map_fst_toList_eq_keys]
    simpa using absent

theorem fields_of_hashOrAbsent (well : server.faults = [])
    (accepted : (server.keyspace number).HashOrAbsent key) :
    fields number key server = (.ok ((server.keyspace number).fieldsAt key), server) := by
  have pairs : request .hgetall (Server.answerFields number key) Reply.fields server =
      (.ok ((server.keyspace number).fieldsAt key).toList, server) := by
    rw [request_eq well, Server.answerFields, Keyspace.fields_of_hashOrAbsent accepted]
    simp only [Server.replyTo, Reply.fields, pairs_flatMap]
  rw [fields, bind_of_ok pairs, ofList_toList]
  rfl

theorem fields_of_not_hashOrAbsent (well : server.faults = [])
    (refused : ¬ (server.keyspace number).HashOrAbsent key) :
    fields number key server = (.error (.ofLine Server.wrongTypeLine), server) := by
  have failed : request .hgetall (Server.answerFields number key) Reply.fields server =
      (.error (.ofLine Server.wrongTypeLine), server) := by
    rw [request_eq well, Server.answerFields, Keyspace.fields_of_not_hashOrAbsent refused]
    rfl
  rw [fields, bind_of_error failed]

/-! ## Commits -/

/-- The answer to a commit that the script gives, as the client counts it. -/
def committed (server : Server) (number : Int) (field : String)
    (desired : List (String × String)) : Except Failure Nat × Server :=
  match (server.keyspace number).writeAll field desired with
  | .ok (written, keyspace) =>
    (.ok (written % UInt64.size),
      { server with knowsScript := true }.setKeyspace number keyspace)
  | .error _ => (.error (.ofLine Server.wrongTypeLine), { server with knowsScript := true })

theorem count_number (written : Nat) :
    Reply.count (.scalar (.number written)) = .ok (written % UInt64.size) := by
  rw [Reply.count, ← Int.natCast_emod, Int.toNat_natCast]

theorem runScript_of_knowsScript {desired : List (String × String)} (well : server.faults = [])
    (known : server.knowsScript = true) :
    runScript number field desired server = committed server number field desired := by
  have same : { server with knowsScript := true } = server := by rw [← known]
  rw [runScript, request_eq well, Server.answerCommit, if_pos known, committed, same]
  cases (server.keyspace number).writeAll field desired with
  | ok result => rw [count_number]
  | error => rfl

/-- A commit ends as the script does; a server that does not know it is taught. -/
theorem commit_eq {desired : List (String × String)} (well : server.faults = []) :
    commit number field desired server = committed server number field desired := by
  cases known : server.knowsScript with
  | true =>
    have run : runScript number field desired server = committed server number field desired :=
      runScript_of_knowsScript well known
    have same : { server with knowsScript := true } = server := by rw [← known]
    rw [commit]
    rw [committed, same] at run ⊢
    cases written : (server.keyspace number).writeAll field desired with
    | ok result =>
      rw [written] at run
      exact tryCatch_of_ok run
    | error =>
      -- The line for a wrong type is not the one that asks for the script.
      have other : (Failure.ofLine Server.wrongTypeLine).kind ≠ .noScript := by decide
      rw [written] at run
      rw [tryCatch_of_error run, if_neg other]
      rfl
  | false =>
    have unknown : runScript number field desired server =
        (.error (.ofLine Server.noScriptLine), server) := by
      rw [runScript, request_eq well, Server.answerCommit, if_neg (by simp [known])]
      rfl
    have loaded : loadScript server = (.ok (), { server with knowsScript := true }) := by
      rw [loadScript, request_eq well]
      rfl
    have asked : (Failure.ofLine Server.noScriptLine).kind = .noScript := by decide
    rw [commit, tryCatch_of_error unknown, if_pos asked, bind_of_ok loaded]
    exact runScript_of_knowsScript well rfl

end Session

end LoopGuard.Keyspace
