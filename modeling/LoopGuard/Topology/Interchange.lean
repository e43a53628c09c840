import LoopGuard.Json.Value
import LoopGuard.Status.Basic

/-!
# Topology in JSON

How links, ports and statuses are read from JSON: names are texts, links and
ports are records, and a status is its word, also as the only field of an
object that is null.
-/

namespace LoopGuard

def PortRef.fieldNames : List String := ["node", "port"]

def Link.fieldNames : List String :=
  ["link_id", "source_node", "source_port", "dest_node", "dest_port"]

def Identifier.ofJson? {kind : Naming} (value : Json.Value) : Option (Identifier kind) :=
  (Json.asText? value).map Identifier.mk

def PortRef.ofJson? (value : Json.Value) : Option PortRef := do
  match ← Json.texts? fieldNames value with
  | [node, port] => return .of node port
  | _ => none

def Link.ofJson? (value : Json.Value) : Option Link := do
  match ← Json.texts? fieldNames value with
  | [id, sourceNode, sourcePort, destNode, destPort] =>
    return ⟨⟨id⟩, .of sourceNode sourcePort, .of destNode destPort⟩
  | _ => none

def PortStatus.ofJson? : Json.Value → Option PortStatus
  | .text (some word) => ofText? word
  | .object [(some word, .null)] => ofText? word
  | _ => none

end LoopGuard
