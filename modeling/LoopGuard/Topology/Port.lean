import LoopGuard.Text.Cut
import LoopGuard.Topology.Identifier

/-!
# Ports

A `PortRef` names one port of one switch, and is the key of a status record.
Ports are ordered by switch first and then by port. The store writes the two
names into one key with a bar between them; `PortRef.ofStoreKey?` reads such a
key back by cutting it at its first bar, so the names of switches must be free
of bars while the names of ports need not be.
-/

namespace LoopGuard

/-- One port of one switch. -/
structure PortRef where
  node : NodeId
  port : PortId
deriving DecidableEq, Repr

namespace PortRef

instance : Ord PortRef := ⟨compareLex (compareOn node) (compareOn port)⟩

instance : Std.TransOrd PortRef :=
  inferInstanceAs (Std.TransCmp (compareLex (compareOn node) (compareOn port)))

instance : Std.LawfulEqOrd PortRef where
  eq_of_compare {a b} same := by
    have both : (compare a.node b.node).then (compare a.port b.port) = .eq := same
    rw [Ordering.then_eq_eq] at both
    cases a
    cases b
    simp only [Std.LawfulEqOrd.compare_eq_iff_eq] at both
    obtain ⟨rfl, rfl⟩ := both
    rfl

def of (node port : String) : PortRef := ⟨⟨node⟩, ⟨port⟩⟩

/-- The key under which the store files this port. -/
def storeKey (port : PortRef) : String :=
  port.node.text ++ "|" ++ port.port.text

/-- The port filed under a key; both of its names must be non-empty. -/
def ofStoreKey? (key : String) : Option PortRef :=
  match Text.cutAt? '|' key.toList with
  | some (node@(_ :: _), port@(_ :: _)) => some (of (String.ofList node) (String.ofList port))
  | _ => none

def display (port : PortRef) : String :=
  port.node.text ++ "/" ++ port.port.text

end PortRef

end LoopGuard
