import LoopGuard.Keyspace.Glob

/-!
# Keyspaces

A `Keyspace` is one database: under each key either a hash of text fields or a
value of another type. Hash commands on a value of another type are refused; a
missing key counts as an empty hash.

`writeAll` is the commit script: it reads every key before it writes any, so
that a refused key leaves everything as it was, and writes the fields whose
value differs.
-/

namespace LoopGuard

abbrev Fields := Std.ExtTreeMap String String

/-- What is kept under a key. -/
inductive Entry where
  | hash (fields : Fields)
  | text (value : String)

abbrev Keyspace := Std.ExtTreeMap String Entry

namespace Keyspace

/-- A key holds a value of another type than the command works on. -/
structure WrongType where
deriving DecidableEq, Repr

def keysMatching (keyspace : Keyspace) (pattern : String) : List String :=
  keyspace.keys.filter (Glob.isMatch pattern)

def fields (keyspace : Keyspace) (key : String) : Except WrongType Fields :=
  match keyspace[key]? with
  | none => .ok ∅
  | some (.hash fields) => .ok fields
  | some (.text _) => .error {}

/-- The value of one field of the hash under a key. -/
def value? (keyspace : Keyspace) (key field : String) : Except WrongType (Option String) := do
  return (← keyspace.fields key)[field]?

def setField (keyspace : Keyspace) (key field value : String) : Except WrongType Keyspace := do
  return keyspace.insert key (.hash ((← keyspace.fields key).insert field value))

/-- The keys, with their values to be, at which the field has another value. -/
def differing (keyspace : Keyspace) (field : String) (desired : List (String × String)) :
    Except WrongType (List (String × String)) := do
  desired.filterM fun (key, value) => do return (← keyspace.value? key field) ≠ some value

/-- Gives the field its value under each key, where it has another; tells under
how many keys it had. -/
def writeAll (keyspace : Keyspace) (field : String) (desired : List (String × String)) :
    Except WrongType (Nat × Keyspace) := do
  let changed ← keyspace.differing field desired
  let written ← changed.foldlM
    (fun keyspace (key, value) => keyspace.setField key field value) keyspace
  return (changed.length, written)

end Keyspace

end LoopGuard
