import LoopGuard.Status.Basic

/-!
# Tables and keys

Discovered links are published under keys that start with the link table's name
and the id of their topology. Port statuses are recorded under keys made of the
status table's name and the store key of the port.
-/

namespace LoopGuard.Keyspace

def linkTableName : String := "TOPOLOGY_LINK_TABLE"

def statusTableName : String := "PORT_LOOP_STATUS_TABLE"

/-- The beginning of every link key of one topology. -/
def linkPrefix (topology : String) : String := linkTableName ++ ":" ++ topology ++ "|"

def statusKey (storeKey : String) : String := statusTableName ++ "|" ++ storeKey

def recordKey (port : PortRef) : String := statusKey port.storeKey

def statusField : String := "status"

end LoopGuard.Keyspace
