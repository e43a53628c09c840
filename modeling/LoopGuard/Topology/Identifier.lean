import Std.Data.ExtTreeMap
import Std.Data.ExtTreeSet

/-!
# Names of nodes, ports and links

A topology names three kinds of things by free text: switches (nodes), the
ports of a switch, and links. The texts of different kinds never mix, so an
`Identifier` carries its kind in its type. Identifiers are ordered by their
texts, character by character, and two identifiers compare equal exactly when
their texts are the same.
-/

namespace LoopGuard

/-- The kinds of things that have a name of their own. -/
inductive Naming where
  | node
  | port
  | link

/-- The name of one thing of the given kind. -/
structure Identifier (kind : Naming) where
  text : String
deriving DecidableEq, Repr

abbrev NodeId := Identifier .node

abbrev PortId := Identifier .port

abbrev LinkId := Identifier .link

namespace Identifier

variable {kind : Naming}

instance : Ord (Identifier kind) := ⟨compareOn text⟩

instance : Std.TransOrd (Identifier kind) :=
  inferInstanceAs (Std.TransCmp (compareOn (@text kind)))

instance : Std.LawfulEqOrd (Identifier kind) where
  eq_of_compare {a b} same := by
    have texts : a.text = b.text := Std.LawfulEqOrd.eq_of_compare same
    cases a
    cases b
    exact congrArg Identifier.mk texts

end Identifier

end LoopGuard
