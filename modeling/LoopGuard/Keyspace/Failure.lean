import LoopGuard.Store.Error
import LoopGuard.Text.Cut

/-!
# Failures of a database client

The client reports trouble with the connection, error lines of the server, and
replies that it cannot convert. Here they get their wording and become failures
of the store: a lost connection may come back, a reply of the wrong type makes
no sense, and everything else is a refused command, filed under the category of
its kind.
-/

namespace LoopGuard.Keyspace

/-- What went wrong on a connection. -/
inductive Trouble where
  | refused
  | notFound
  | brokenPipe
  | reset
  | unexpectedEnd
  | timedOut
  | wouldBlock
  | other
deriving DecidableEq, Repr

/-- Whether the trouble may pass on a new connection. -/
def Trouble.isLoss (trouble : Trouble) : Bool := trouble ≠ .other

/-- The kinds of failures. -/
inductive FailureKind where
  | response
  | authentication
  | wrongType
  | execAbort
  | busyLoading
  | noScript
  | clientConfig
  | moved
  | ask
  | tryAgain
  | clusterDown
  | crossSlot
  | masterDown
  | connection
  | client
  | extension
  | readOnly
  | notBusy
deriving DecidableEq, Repr

namespace FailureKind

def name : FailureKind → String
  | response => "ResponseError"
  | authentication => "AuthenticationFailed"
  | wrongType => "TypeError"
  | execAbort => "ExecAbortError"
  | busyLoading => "BusyLoadingError"
  | noScript => "NoScriptError"
  | clientConfig => "InvalidClientConfig"
  | moved => "Moved"
  | ask => "Ask"
  | tryAgain => "TryAgain"
  | clusterDown => "ClusterDown"
  | crossSlot => "CrossSlot"
  | masterDown => "MasterDown"
  | connection => "IoError"
  | client => "ClientError"
  | extension => "ExtensionError"
  | readOnly => "ReadOnly"
  | notBusy => "NotBusy"

/-- The category under which a failure of this kind is filed. -/
def category : FailureKind → String
  | response => "response error"
  | authentication => "authentication failed"
  | wrongType => "type error"
  | execAbort => "script execution aborted"
  | busyLoading => "busy loading"
  | noScript => "no script"
  | clientConfig => "invalid client config"
  | moved => "key moved"
  | ask => "key moved (ask)"
  | tryAgain => "try again"
  | clusterDown => "cluster down"
  | crossSlot => "cross-slot"
  | masterDown => "master down"
  | connection => "I/O error"
  | client => "client error"
  | extension => "extension error"
  | readOnly => "read-only"
  | notBusy => "not busy"

/-- The kind of an error line that starts with this code. Codes that are not
listed are extensions of the server. -/
def ofCode (code : String) : FailureKind :=
  match code with
  | "ERR" => response
  | "EXECABORT" => execAbort
  | "LOADING" => busyLoading
  | "NOSCRIPT" => noScript
  | "MOVED" => moved
  | "ASK" => ask
  | "TRYAGAIN" => tryAgain
  | "CLUSTERDOWN" => clusterDown
  | "CROSSSLOT" => crossSlot
  | "MASTERDOWN" => masterDown
  | "READONLY" => readOnly
  | "NOTBUSY" => notBusy
  | _ => extension

end FailureKind

/-- A failure as the client reports it. -/
inductive Failure where
  /-- Trouble with the connection. -/
  | connection (trouble : Trouble) (text : String)
  /-- A failure that is only described. -/
  | plain (kind : FailureKind) (text : String)
  /-- A failure with a detail. -/
  | detailed (kind : FailureKind) (text detail : String)
  /-- An error line of the server: its code and what follows. -/
  | line (code : String) (detail : Option String)
deriving DecidableEq, Repr

namespace Failure

/-- Reads an error line: the first word is its code. -/
def ofLine (text : String) : Failure :=
  match Text.cutAt? ' ' text.toList with
  | none => line text none
  | some (code, detail) => line (String.ofList code) (some (String.ofList detail))

def kind : Failure → FailureKind
  | connection .. => .connection
  | plain kind _ => kind
  | detailed kind .. => kind
  | line code _ => .ofCode code

/-- The wording of a failure that is only described. -/
def plainMessage (kind : FailureKind) (text : String) : String := text ++ "- " ++ kind.name

def detailedMessage (kind : FailureKind) (text detail : String) : String :=
  text ++ " - " ++ kind.name ++ ": " ++ detail

def message : Failure → String
  | connection _ text => text
  | plain kind text => plainMessage kind text
  | detailed kind text detail => detailedMessage kind text detail
  | line code detail =>
    match FailureKind.ofCode code with
    | .extension => code ++ ": " ++ detail.getD "Unknown extension error encountered"
    | kind =>
      let signalled := "An error was signalled by the server"
      match detail with
      | none => plainMessage kind signalled
      | some detail => detailedMessage kind signalled detail

def isLoss : Failure → Bool
  | connection trouble _ => trouble.isLoss
  | _ => false

def toStoreError (failure : Failure) : StoreError :=
  if failure.isLoss then .connection failure.message
  else if failure.kind = .wrongType then .invalidReply failure.message
  else .command failure.kind.category failure.message

def dropped : Failure := connection .brokenPipe "broken pipe"

/-- A reply is not of the type that was asked for. -/
def incompatible (wanted : String) : Failure :=
  detailed .wrongType "Response was of incompatible type" ("Response is no " ++ wanted ++ ".")

end Failure

end LoopGuard.Keyspace
