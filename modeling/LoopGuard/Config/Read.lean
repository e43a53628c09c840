import LoopGuard.Config.Given
import LoopGuard.Error
import LoopGuard.Toml.Document

/-!
# Reading a configuration

A configuration file is a TOML document with a table for each section. A
section may also be an array with the values of its fields in order. Fields and
sections that are missing keep their defaults, and unknown ones are passed
over. A file that does not exist gives the defaults.
-/

namespace LoopGuard.Config

open Toml (Value Entries)

/-! ## Fields -/

def asText? : Value → Option String
  | .text value => some value
  | _ => none

def asNatBelow? (bound : Nat) : Value → Option Nat
  | .integer value => if 0 ≤ value ∧ value < bound then some value.toNat else none
  | _ => none

def asUInt64? (value : Value) : Option UInt64 := (asNatBelow? UInt64.size value).map UInt64.ofNat

def asUInt32? (value : Value) : Option UInt32 := (asNatBelow? UInt32.size value).map UInt32.ofNat

def asUInt16? (value : Value) : Option UInt16 := (asNatBelow? UInt16.size value).map UInt16.ofNat

def asInt64? : Value → Option Int64
  | .integer value =>
    if Int64.minValue.toInt ≤ value ∧ value ≤ Int64.maxValue.toInt then some (Int64.ofInt value)
    else none
  | _ => none

def field? {α : Type} (read : Value → Option α) (entries : Entries) (name : String) :
    Option (Option α) :=
  match entries.get? name with
  | none => some none
  | some value => (read value).map some

/-! ## Sections -/

/-- The entries of a section with these fields. An array lists values in the
order of the fields; a date has none of them. -/
def sectionEntries? (names : List String) : Value → Option Entries
  | .table _ entries =>
    if entries.all fun (name, value) => names.contains name || value.isPassable then some entries
    else none
  | .array _ items => some (names.zip items)
  | .datetime => some []
  | _ => none

def section? {α : Type} (names : List String) (read : Entries → Option α) (empty : α)
    (document : Entries) (name : String) : Option α :=
  match document.get? name with
  | none => some empty
  | some value => (sectionEntries? names value).bind read

namespace Given

def Topology.read? (entries : Entries) : Option Topology := do
  return {
    topologyId := ← field? asText? entries "topology_id"
    refreshDelay := ← field? asUInt64? entries "graph_refresh_delay_ms"
    maxReschedules := ← field? asUInt32? entries "max_reschedules"
    hostMarker := ← field? asText? entries "host_link_marker" }

def Database.read? (entries : Entries) : Option Database := do
  return {
    host := ← field? asText? entries "redis_host"
    port := ← field? asUInt16? entries "redis_port"
    links := ← field? asInt64? entries "appl_db"
    statuses := ← field? asInt64? entries "state_db" }

def Writer.read? (entries : Entries) : Option Writer := do
  return {
    maxAttempts := ← field? asUInt32? entries "max_attempts"
    retryBackoff := ← field? asUInt64? entries "retry_backoff_ms" }

def Feed.read? (entries : Entries) : Option Feed := do
  return { pollInterval := ← field? asUInt64? entries "poll_interval_ms" }

def Topology.names : List String :=
  ["topology_id", "graph_refresh_delay_ms", "max_reschedules", "host_link_marker"]

def Database.names : List String := ["redis_host", "redis_port", "appl_db", "state_db"]

def Writer.names : List String := ["max_attempts", "retry_backoff_ms"]

def Feed.names : List String := ["poll_interval_ms"]

def names : List String := ["topology", "database", "writer", "feed"]

def ofDocument? (document : Entries) : Option Given :=
  if document.all fun (name, value) => names.contains name || value.isPassable then do
    return {
      topology := ← section? Topology.names Topology.read? {} document "topology"
      database := ← section? Database.names Database.read? {} document "database"
      writer := ← section? Writer.names Writer.read? {} document "writer"
      feed := ← section? Feed.names Feed.read? {} document "feed" }
  else none

end Given

def ofText? (text : String) : Option Config := do
  return (← Given.ofDocument? (← Toml.readDocument? text)).overlay .default

/-- The configuration in the file at a path, given its content or why it cannot
be read. -/
def load (path : String) (file : Except FileFailure ByteArray) : Except GuardError Config :=
  match file with
  | .error .notFound => .ok .default
  | .error failure => .error (.file path failure)
  | .ok bytes =>
    match String.fromUTF8? bytes with
    | none => .error (.file path .invalidData)
    | some text =>
      match ofText? text with
      | none => .error (.configParse path)
      | some config => .ok config

end LoopGuard.Config
