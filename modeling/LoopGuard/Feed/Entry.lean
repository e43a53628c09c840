import LoopGuard.Keyspace.Basic

/-!
# Link entries

Discovery publishes a link as an entry of named fields. An entry describes a
link only when it names both ends in full.
-/

namespace LoopGuard

namespace Fields

/-- The value of a field, unless it is missing or empty. -/
def filled? (fields : Fields) (name : String) : Option String :=
  fields[name]?.filter (!·.isEmpty)

/-- The link that an entry describes under an id. -/
def link? (id : String) (fields : Fields) : Option Link := do
  let sourceNode ← fields.filled? "source_node"
  let sourcePort ← fields.filled? "source_port"
  let destNode ← fields.filled? "dest_node"
  let destPort ← fields.filled? "dest_port"
  return ⟨⟨id⟩, .of sourceNode sourcePort, .of destNode destPort⟩

end Fields

end LoopGuard
