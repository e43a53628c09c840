import LoopGuard.Forest.Basic
import LoopGuard.Status.Basic

/-!
# From a forest to port statuses

A cable is active when the forest has a link that runs over it, in either
direction. A port forwards when every cable that ends in it is active; a port
that also ends an inactive cable discards. Ports that end no link have no
status, unless they are forced to discard.
-/

namespace LoopGuard

namespace StatusMap

def demand (statuses : StatusMap) (port : PortRef) (status : PortStatus) : StatusMap :=
  statuses.alter port fun
    | none => some status
    | some current => some (current.meet status)

/-- The status of each end of the links, given the forest. -/
def resolve (links : List Link) (forest : SpanningForest) : StatusMap :=
  let active : Std.ExtTreeSet Cable := .ofList (forest.links.map Link.cable)
  links.foldl
    (fun statuses link =>
      let status := if active.contains link.cable then .forwarding else .discarding
      link.endpoints.foldl (fun statuses port => statuses.demand port status) statuses)
    ∅

/-- Discards every forced port that has no status yet. -/
def withForcedDiscards (statuses : StatusMap) (forced : PortSet) : StatusMap :=
  forced.toList.foldl (fun statuses port => statuses.insertIfNew port .discarding) statuses

/-- Whether the port is not known to discard. -/
def forwards (statuses : StatusMap) (port : PortRef) : Bool :=
  statuses[port]? ≠ some .discarding

end StatusMap

def forwardingLinks (links : List Link) (statuses : StatusMap) : List Link :=
  links.filter fun link => link.endpoints.all statuses.forwards

end LoopGuard
