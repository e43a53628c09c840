import LoopGuard.Topology.Port

/-!
# Links

A `Link` joins two ports and is treated as undirected. Discovery reports each
cable once per direction under two link ids, so both links of a cable run over
the same unordered pair of ports, their `Cable`.
-/

namespace LoopGuard

/-- An unordered pair of ports, written with the lesser port first. -/
structure Cable where
  near : PortRef
  far : PortRef
deriving DecidableEq, Repr

namespace Cable

instance : Ord Cable := ⟨compareLex (compareOn near) (compareOn far)⟩

instance : Std.TransOrd Cable :=
  inferInstanceAs (Std.TransCmp (compareLex (compareOn near) (compareOn far)))

instance : Std.LawfulEqOrd Cable where
  eq_of_compare {a b} same := by
    have both : (compare a.near b.near).then (compare a.far b.far) = .eq := same
    rw [Ordering.then_eq_eq] at both
    cases a
    cases b
    simp only [Std.LawfulEqOrd.compare_eq_iff_eq] at both
    obtain ⟨rfl, rfl⟩ := both
    rfl

/-- The cable between two ports, given in either order. -/
def between (a b : PortRef) : Cable :=
  if (compare a b).isLE then ⟨a, b⟩ else ⟨b, a⟩

end Cable

/-- A reported link between two ports. -/
structure Link where
  id : LinkId
  source : PortRef
  destination : PortRef
deriving DecidableEq, Repr

namespace Link

/-- Both ends, source first. -/
def endpoints (link : Link) : List PortRef := [link.source, link.destination]

/-- The cable that the link runs over, the same in both directions. -/
def cable (link : Link) : Cable := .between link.source link.destination

def isSelfLoop (link : Link) : Bool := link.source.node = link.destination.node

/-- Whether the link attaches a host: the marker stands in its id. An empty
marker marks nothing. -/
def isHostLink (marker : String) (link : Link) : Bool :=
  !marker.isEmpty && Text.occursIn marker.toList link.id.text.toList

def display (link : Link) : String :=
  link.id.text ++ " (" ++ link.source.display ++ " <-> " ++ link.destination.display ++ ")"

end Link

end LoopGuard
