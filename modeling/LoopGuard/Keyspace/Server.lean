import LoopGuard.Keyspace.Basic
import LoopGuard.Keyspace.Reply

/-!
# The database server

A `Server` holds numbered keyspaces and remembers whether it knows the commit
script. Faults can be planted in it: each one strikes one command of a name,
which then does nothing and is answered with a given reply, or with the end of
the connection. A `Session` is what a client does with a server.
-/

namespace LoopGuard.Keyspace

/-- The commands that a client sends. -/
inductive CommandName where
  | keys
  | hget
  | hgetall
  | evalsha
  | script
deriving DecidableEq, Repr

/-- A fault that waits for a command. -/
structure Fault where
  command : CommandName
  /-- How many commands of this name go through before it strikes. -/
  skip : Nat := 0
  /-- The answer of the struck command; without one the connection ends. -/
  reply : Option Reply

/-- The fault that strikes a command, and the faults left. -/
def Fault.strike (command : CommandName) : List Fault → Option Fault × List Fault
  | [] => (none, [])
  | fault :: rest =>
    if fault.command = command then
      match fault.skip with
      | 0 => (some fault, rest)
      | skip + 1 => (strike command rest).map id ({ fault with skip } :: ·)
    else (strike command rest).map id (fault :: ·)

/-- A database server. -/
structure Server where
  keyspaces : Std.ExtTreeMap Int Keyspace := ∅
  knowsScript : Bool := false
  faults : List Fault := []

namespace Server

def keyspace (server : Server) (number : Int) : Keyspace := server.keyspaces.getD number ∅

def setKeyspace (server : Server) (number : Int) (keyspace : Keyspace) : Server :=
  { server with keyspaces := server.keyspaces.insert number keyspace }

def wrongTypeLine : String :=
  "WRONGTYPE Operation against a key holding the wrong kind of value"

/-- The error line for a script that the server does not know. -/
def noScriptLine : String := "NOSCRIPT No matching script. Please use EVAL."

def replyTo {α : Type} (result : Except WrongType α) (reply : α → Reply) : Reply :=
  match result with
  | .ok value => reply value
  | .error _ => .error wrongTypeLine

/-- Answers a request for the keys that match a pattern. -/
def answerKeys (number : Int) (pattern : String) (server : Server) : Reply × Server :=
  (.list (((server.keyspace number).keysMatching pattern).map .text), server)

def answerField (number : Int) (key field : String) (server : Server) : Reply × Server :=
  (replyTo ((server.keyspace number).value? key field) fun
    | none => .missing
    | some value => .scalar (.text value), server)

def answerFields (number : Int) (key : String) (server : Server) : Reply × Server :=
  (replyTo ((server.keyspace number).fields key) fun fields =>
    .list (fields.toList.flatMap fun (field, value) => [.text field, .text value]), server)

def answerCommit (number : Int) (field : String) (desired : List (String × String))
    (server : Server) : Reply × Server :=
  if server.knowsScript then
    match (server.keyspace number).writeAll field desired with
    | .ok (written, keyspace) =>
      (.scalar (.number written), server.setKeyspace number keyspace)
    | .error _ => (.error wrongTypeLine, server)
  else (.error noScriptLine, server)

/-- Takes the commit script in. -/
def answerLoad (server : Server) : Reply × Server :=
  (.scalar (.text ""), { server with knowsScript := true })

end Server

/-- What a client does with a server, which may fail. -/
abbrev Session := ExceptT Failure (StateM Server)

namespace Session

def request {α : Type} (command : CommandName) (answer : Server → Reply × Server)
    (convert : Reply → Except Failure α) : Session α := fun server =>
  match Fault.strike command server.faults with
  | (some fault, faults) =>
    match fault.reply with
    | some reply => (convert reply, { server with faults })
    | none => (.error .dropped, { server with faults })
  | (none, faults) =>
    let answered := answer { server with faults }
    (convert answered.1, answered.2)

def keys (number : Int) (pattern : String) : Session (List String) :=
  request .keys (Server.answerKeys number pattern) Reply.texts

def field? (number : Int) (key field : String) : Session (Option String) :=
  request .hget (Server.answerField number key field) Reply.text?

def fields (number : Int) (key : String) : Session Fields := do
  let pairs ← request .hgetall (Server.answerFields number key) Reply.fields
  return .ofList pairs

def runScript (number : Int) (field : String) (desired : List (String × String)) :
    Session Nat :=
  request .evalsha (Server.answerCommit number field desired) Reply.count

def loadScript : Session Unit := request .script Server.answerLoad Reply.done

/-- Runs the commit script, and sends it first if the server does not know it. -/
def commit (number : Int) (field : String) (desired : List (String × String)) :
    Session Nat :=
  tryCatch (runScript number field desired) fun failure =>
    if failure.kind = .noScript then do
      loadScript
      runScript number field desired
    else throw failure

/-- The result of a session as a store reports it. -/
def toStore {α : Type} (session : Session α) (server : Server) : Except StoreError α × Server :=
  let done := session server
  (done.1.mapError Failure.toStoreError, done.2)

end Session

/-- Whether a server can be addressed by this host name. -/
def isHostName (host : String) : Bool :=
  !host.isEmpty && host.toList.all fun c => !("\x00 <>[]\\^|".toList.contains c)

def connect (host : String) : Except Failure Unit :=
  if isHostName host then .ok ()
  else .error (.plain .clientConfig "Redis URL did not parse")

end LoopGuard.Keyspace
