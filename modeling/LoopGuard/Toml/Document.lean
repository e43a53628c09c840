import LoopGuard.Toml.Value

/-!
# TOML documents

A document is a list of statements, one to a line: a header that names a table,
an array header that adds a table to a collection, or a key with its value.
The statements are carried out in order on one table.
-/

namespace LoopGuard.Toml

/-- One statement of a document. -/
inductive Statement where
  /-- A header that names the table at a path. -/
  | table (path : List String) (key : String)
  /-- A header that adds a table to the collection at a path. -/
  | item (path : List String) (key : String)
  /-- A value under a dotted key. -/
  | assign (path : List String) (key : String) (value : Value)
deriving Repr

def splitPath? (path : List String) : Option (List String × String) :=
  path.getLast?.map fun key => (path.dropLast, key)

/-- Reads a dotted key, with its last part apart from the others. -/
def readDottedKey? (text : List Char) : Option (List String × String × List Char) := do
  let (keys, rest) ← readPath? text.length text
  let (path, key) ← splitPath? keys
  return (path, key, rest)

/-- Reads one statement, without the end of its line. -/
def readStatement? (text : List Char) : Option (Statement × List Char) :=
  match text with
  | '[' :: '[' :: rest => do
    let (path, key, rest) ← readDottedKey? rest
    return (.item path key, ← expect? ']' (← expect? ']' rest))
  | '[' :: rest => do
    let (path, key, rest) ← readDottedKey? rest
    return (.table path key, ← expect? ']' rest)
  | _ => do
    let (path, key, rest) ← readDottedKey? text
    let value := skipBlanks (← expect? '=' rest)
    let (value, rest) ← readValue? (2 * value.length + 2) maxDepth value
    return (.assign path key value, rest)

def readStatements? (fuel : Nat) (text : List Char) : Option (List Statement) :=
  match fuel with
  | 0 => none
  | fuel + 1 => do
    match ← skipLines false text with
    | [] => return []
    | text =>
      let (statement, rest) ← readStatement? text
      return statement :: (← readStatements? fuel (← finishLine rest))

/-- A document while its statements are carried out: the whole table, and the
table that the last header named. -/
structure Builder where
  root : Table := ⟨.defined, []⟩
  header : List String := []
deriving Repr

namespace Builder

def run (builder : Builder) : Statement → Option Builder
  | .table path key => do
    let root ← builder.root.changeAt false (·.define key) path
    return { root, header := path ++ [key] }
  | .item path key => do
    let root ← builder.root.changeAt false (·.collect key) path
    return { root, header := path ++ [key] }
  | .assign path key value => do
    let root ← builder.root.changeAt false (·.assign path key value) builder.header
    return { builder with root }

end Builder

/-- The table that a document describes, if it is well formed. A byte order mark
at its start is no part of it. -/
def readDocument? (text : String) : Option Entries := do
  let chars := match text.toList with
    | '\ufeff' :: rest => rest
    | chars => chars
  let statements ← readStatements? (chars.length + 1) chars
  let builder ← statements.foldlM Builder.run {}
  return builder.root.entries

end LoopGuard.Toml
