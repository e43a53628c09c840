import LoopGuard.Topology.Link

/-!
# Link events

A `LinkEvent` is one batch of changes: the links that appeared and the links
that went away. Links that attach hosts are no part of the fabric and are
dropped before an event counts.
-/

namespace LoopGuard

/-- A batch of link changes. -/
structure LinkEvent where
  created : List Link := []
  removed : List Link := []
deriving DecidableEq, Repr

namespace LinkEvent

def isEmpty (event : LinkEvent) : Bool := event.created.isEmpty && event.removed.isEmpty

def size (event : LinkEvent) : Nat := event.created.length + event.removed.length

def withoutHostLinks (marker : String) (event : LinkEvent) : LinkEvent where
  created := event.created.filter fun link => !link.isHostLink marker
  removed := event.removed.filter fun link => !link.isHostLink marker

end LinkEvent

end LoopGuard
