import LoopGuard.Toml.Number
import LoopGuard.Toml.Text

/-!
# TOML values

Values are read as trees. A table knows how it came about, since that decides
what may still be added to it: a table that a header names is complete as far
as dotted keys go, a table that a header or a dotted key only passes through
can grow, and an inline table is closed.
-/

namespace LoopGuard.Toml

/-- How a table came about. -/
inductive Origin where
  /-- A header passed through it. -/
  | implied
  /-- A dotted key passed through it. -/
  | dotted
  /-- A header named it; the whole document counts as named. -/
  | defined
  /-- It stands in braces. -/
  | inline
deriving DecidableEq, Repr

/-- A TOML value. -/
inductive Value where
  | text (value : String)
  | integer (value : Int)
  /-- A float, of which only matters whether it is finite. -/
  | float (finite : Bool)
  | boolean (value : Bool)
  | datetime
  /-- An array, written in brackets or collected from array headers. -/
  | array (collected : Bool) (items : List Value)
  | table (origin : Origin) (entries : List (String × Value))
deriving Repr, Inhabited

/-- The entries of a table in the order in which they were written. -/
abbrev Entries := List (String × Value)

/-- A table apart from other values. -/
structure Table where
  origin : Origin
  entries : Entries := []
deriving Repr

def Table.toValue (table : Table) : Value := .table table.origin table.entries

namespace Entries

def get? (entries : Entries) (key : String) : Option Value := entries.lookup key

/-- Puts a value under a key, in the place of the old one if there is one. -/
def set (entries : Entries) (key : String) (value : Value) : Entries :=
  match entries with
  | [] => [(key, value)]
  | (k, v) :: rest => if k = key then (k, value) :: rest else (k, v) :: set rest key value

end Entries

namespace Table

/-- Changes the table at the end of a path. Missing tables on the way are made,
and of collected tables the last one is meant. A dotted path stays out of
tables that a header named, and no path leads into an inline table. -/
def changeAt (dotted : Bool) (change : Table → Option Table) : List String → Table → Option Table
  | [], table => change table
  | key :: path, table =>
    match Entries.get? table.entries key with
    | none => do
      let child ← changeAt dotted change path ⟨if dotted then .dotted else .implied, []⟩
      return { table with entries := Entries.set table.entries key child.toValue }
    | some (.table origin entries) =>
      if origin = .inline || (dotted && origin = .defined) then none
      else do
        let child ← changeAt dotted change path ⟨origin, entries⟩
        return { table with entries := Entries.set table.entries key child.toValue }
    | some (.array true items) =>
      match items.getLast? with
      | some (.table origin entries) => do
        let child ← changeAt dotted change path ⟨origin, entries⟩
        return { table with
          entries := Entries.set table.entries key
            (.array true (items.dropLast ++ [child.toValue])) }
      | _ => none
    | some _ => none

def insertNew (key : String) (value : Value) (table : Table) : Option Table :=
  match Entries.get? table.entries key with
  | none => some { table with entries := Entries.set table.entries key value }
  | some _ => none

/-- Adds a value under a dotted key. Only dotted keys add to the tables that
they make. -/
def assign (path : List String) (key : String) (value : Value) (table : Table) : Option Table :=
  changeAt (!path.isEmpty)
    (fun target =>
      if (target.origin == .dotted) == path.isEmpty then none else target.insertNew key value)
    path table

/-- Makes the table that a header names. A table may be named once. -/
def define (key : String) (table : Table) : Option Table :=
  match Entries.get? table.entries key with
  | none => table.insertNew key (.table .defined [])
  | some (.table .implied entries) =>
    some { table with entries := Entries.set table.entries key (.table .defined entries) }
  | some _ => none

/-- Adds a table to those that array headers collect under a key. -/
def collect (key : String) (table : Table) : Option Table :=
  match Entries.get? table.entries key with
  | none => table.insertNew key (.array true [.table .defined []])
  | some (.array true items) =>
    some { table with
      entries := Entries.set table.entries key (.array true (items ++ [.table .defined []])) }
  | some _ => none

end Table

/-! ## Values that are not asked for -/

mutual

/-- Whether a value that nobody asks for may stand in a document: its numbers
have to be in range all the same. -/
def Value.isPassable : Value → Bool
  | .integer value => -Nat.pow 2 127 ≤ value && value < Nat.pow 2 128
  | .float finite => finite
  | .array _ items => areItemsPassable items
  | .table _ entries => areEntriesPassable entries
  | .text _ | .boolean _ | .datetime => true

def areItemsPassable : List Value → Bool
  | [] => true
  | item :: rest => item.isPassable && areItemsPassable rest

def areEntriesPassable : List (String × Value) → Bool
  | [] => true
  | (_, value) :: rest => value.isPassable && areEntriesPassable rest

end

/-! ## Reading values -/

def isBareKeyChar (c : Char) : Bool := c.isAlphanum || c = '_' || c = '-'

def readKey? (text : List Char) : Option (String × List Char) :=
  match text with
  | '"' :: rest => (readBasic rest).map fun (key, rest) => (String.ofList key, rest)
  | '\'' :: rest => (readLiteral rest).map fun (key, rest) => (String.ofList key, rest)
  | _ =>
    match text.span isBareKeyChar with
    | ([], _) => none
    | (key, rest) => some (String.ofList key, rest)

/-- Reads keys with points between them, for at most `fuel` keys; blanks may
stand around each. -/
def readPath? (fuel : Nat) (text : List Char) : Option (List String × List Char) :=
  match fuel with
  | 0 => none
  | fuel + 1 => do
    let (key, rest) ← readKey? (skipBlanks text)
    match skipBlanks rest with
    | '.' :: rest => do
      let (keys, rest) ← readPath? fuel rest
      return (key :: keys, rest)
    | rest => return ([key], rest)

def ofToken? (token : List Char) : Option Value :=
  if token = "true".toList then some (.boolean true)
  else if token = "false".toList then some (.boolean false)
  else
    match integer? token with
    | some value => some (.integer value)
    | none =>
      match float? token with
      | some finite => some (.float finite)
      | none => if isDatetime token then some .datetime else none

/-- How deep arrays and inline tables may be nested. -/
def maxDepth : Nat := 80

mutual

/-- Reads a value, in at most `fuel` steps and down to the given depth. -/
def readValue? (fuel depth : Nat) (text : List Char) : Option (Value × List Char) :=
  match fuel with
  | 0 => none
  | fuel + 1 =>
    match text with
    | '"' :: _ | '\'' :: _ =>
      (readText? text).map fun (value, rest) => (.text (String.ofList value), rest)
    | '[' :: rest =>
      match depth with
      | 0 => none
      | depth + 1 =>
        (readItems? fuel depth rest).map fun (items, rest) => (.array false items, rest)
    | '{' :: rest =>
      match depth with
      | 0 => none
      | depth + 1 =>
        (readEntries? fuel depth ⟨.inline, []⟩ rest).map fun (table, rest) =>
          (table.toValue, rest)
    | _ =>
      let (token, rest) := token text
      (ofToken? token).map fun value => (value, rest)

/-- Reads the items of an array up to its closing bracket. -/
def readItems? (fuel depth : Nat) (text : List Char) : Option (List Value × List Char) :=
  match fuel with
  | 0 => none
  | fuel + 1 => do
    match ← skipLines false text with
    | ']' :: rest => return ([], rest)
    | text =>
      let (item, rest) ← readValue? fuel depth text
      match ← skipLines false rest with
      | ']' :: rest => return ([item], rest)
      | ',' :: rest =>
        let (items, rest) ← readItems? fuel depth rest
        return (item :: items, rest)
      | _ => none

/-- Reads the entries of an inline table into `table`, up to its closing
brace. -/
def readEntries? (fuel depth : Nat) (table : Table) (text : List Char) :
    Option (Table × List Char) :=
  match fuel with
  | 0 => none
  | fuel + 1 => do
    match ← skipLines false text with
    | '}' :: rest => return (table, rest)
    | text =>
      let (path, rest) ← readPath? text.length text
      let (value, rest) ← readValue? fuel depth (skipBlanks (← expect? '=' rest))
      let table ← table.assign path.dropLast (path.getLast?.getD "") value
      match ← skipLines false rest with
      | '}' :: rest => return (table, rest)
      | ',' :: rest => readEntries? fuel depth table rest
      | _ => none

end

end LoopGuard.Toml
