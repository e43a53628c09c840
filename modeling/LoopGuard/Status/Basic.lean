import LoopGuard.Topology.Link

/-!
# Port status

A port either forwards flood traffic or discards it. Where several demands
meet on one port, discarding wins. A `StatusMap` gives ports their status, in
the order of the ports.
-/

namespace LoopGuard

/-- The loop-prevention status of a port. -/
inductive PortStatus where
  | forwarding
  | discarding
deriving DecidableEq, Repr

namespace PortStatus

/-- The word for a status, in the store and in messages. -/
def text : PortStatus → String
  | forwarding => "forwarding"
  | discarding => "discarding"

def ofText? (word : String) : Option PortStatus :=
  if word = forwarding.text then some forwarding
  else if word = discarding.text then some discarding
  else none

/-- Whether flood traffic may leave the port. -/
def isForwarding (status : PortStatus) : Bool := status = forwarding

/-- The status of a port under two demands. -/
def meet : PortStatus → PortStatus → PortStatus
  | forwarding, other => other
  | discarding, _ => discarding

end PortStatus

/-- A status for each of finitely many ports. -/
abbrev StatusMap := Std.ExtTreeMap PortRef PortStatus

abbrev PortSet := Std.ExtTreeSet PortRef

namespace StatusMap

/-- The desired statuses that differ from the recorded ones, in the order of
the ports. -/
def differing (desired recorded : StatusMap) : List (PortRef × PortStatus) :=
  desired.toList.filter fun (port, status) => recorded[port]? ≠ some status

/-- The recorded statuses with some of them written anew. -/
def overwrite (recorded : StatusMap) (records : List (PortRef × PortStatus)) : StatusMap :=
  recorded.insertMany records

end StatusMap

end LoopGuard
