import LoopGuard.Store.Error

/-!
# Failures of the daemon

Everything that can go wrong outside the engine's own worker, with the wording
that a user sees.
-/

namespace LoopGuard

/-- Why a file could not be read or written. -/
inductive FileFailure where
  | notFound
  | isADirectory
  /-- The content is no text. -/
  | invalidData
  /-- Anything else, in the words of the system. -/
  | other (message : String)
deriving DecidableEq, Repr

def FileFailure.message : FileFailure → String
  | .notFound => "No such file or directory (os error 2)"
  | .isADirectory => "Is a directory (os error 21)"
  | .invalidData => "stream did not contain valid UTF-8"
  | .other message => message

/-- A failure that is reported to the caller. -/
inductive GuardError where
  /-- A setting has a value it must not have. -/
  | invalidConfig (field detail : String)
  /-- The configuration file at this path is malformed. -/
  | configParse (path : String)
  /-- The file at this path could not be read or written. -/
  | file (path : String) (failure : FileFailure)
  /-- The store failed. -/
  | store (error : StoreError)
  /-- The engine has been shut down. -/
  | shutdown
deriving DecidableEq, Repr

def GuardError.message : GuardError → String
  | .invalidConfig field detail => "Invalid configuration for " ++ field ++ ": " ++ detail
  | .configParse path => "Failed to parse configuration file " ++ path
  | .file path failure => "Failed to read " ++ path ++ ": " ++ failure.message
  | .store error => error.message
  | .shutdown => "Loop remover is shut down"

end LoopGuard
