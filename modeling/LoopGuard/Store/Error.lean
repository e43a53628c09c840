/-!
# Failures of a store

A commit that failed because the store was out of reach, or because another
writer touched the same records, may succeed when tried again. The other
failures stand.
-/

namespace LoopGuard

/-- Why a store did not do what it was asked for. -/
inductive StoreError where
  /-- The store could not be reached. -/
  | connection (message : String)
  /-- The store refused a command, or failed while executing it. -/
  | command (operation message : String)
  /-- Another writer touched the record under this key. -/
  | conflict (key : String)
  /-- The answer of the store makes no sense. -/
  | invalidReply (message : String)
deriving DecidableEq, Repr, Inhabited

namespace StoreError

def message : StoreError → String
  | connection message => "Store connection failed: " ++ message
  | command operation message => "Store command failed: " ++ operation ++ ": " ++ message
  | conflict key => "Store write conflict on " ++ key
  | invalidReply message => "Unexpected store reply: " ++ message

/-- Whether the same commit may succeed when tried again. -/
def isRetryable : StoreError → Bool
  | connection _ | conflict _ => true
  | command .. | invalidReply _ => false

end StoreError

end LoopGuard
