import LoopGuard.Keyspace.Failure
import LoopGuard.Text.Decimal

/-!
# Replies of the server

A reply is a short text, an error line, a number, a longer text that may be
missing, or a list. Each command wants its reply in a form of its own, and what
cannot be converted is a failure.
-/

namespace LoopGuard.Keyspace

/-- A reply that is no list. -/
inductive Scalar where
  | status (text : String)
  | number (value : Int)
  | text (value : String)
deriving DecidableEq, Repr

/-- A reply of the server. -/
inductive Reply where
  | error (line : String)
  | missing
  | scalar (value : Scalar)
  | list (items : List Scalar)
deriving DecidableEq, Repr

namespace Scalar

/-- A scalar as text; a number is written in decimals. -/
def toText : Scalar → String
  | status word => word
  | number value => toString value
  | text value => value

end Scalar

namespace Reply

/-- The reply that a line of the wire stands for. Texts with content and lists
with items take further lines and are not read here. -/
def ofLine? (line : List Char) : Option Reply :=
  match line with
  | '-' :: text => some (error (String.ofList text))
  | '+' :: text => some (scalar (.status (String.ofList text)))
  | ':' :: text => (Text.readInteger? text).map fun value => scalar (.number value)
  | ['$', '-', '1'] => some missing
  | ['*', '-', '1'] => some missing
  | ['*', '0'] => some (list [])
  | _ => none

/-- The reply that is written on the wire, up to the end of its line. -/
def ofWire? (wire : String) : Option Reply :=
  ofLine? (wire.toList.takeWhile fun c => c ≠ '\r' && c ≠ '\n')

/-- A list of texts. A missing reply counts as an empty list. -/
def texts : Reply → Except Failure (List String)
  | error line => .error (.ofLine line)
  | missing => .ok []
  | scalar (.text value) => .ok [value]
  | scalar _ => .error (.incompatible "list")
  | list items => .ok (items.map Scalar.toText)

/-- Text, unless it is missing. -/
def text? : Reply → Except Failure (Option String)
  | error line => .error (.ofLine line)
  | missing => .ok none
  | scalar value => .ok (some value.toText)
  | list _ => .error (.incompatible "text")

/-- Pairs of a field and its value, given one after the other. -/
def pairs : List Scalar → Except Failure (List (String × String))
  | [] => .ok []
  | [_] => .error (.incompatible "map")
  | field :: value :: rest => do return (field.toText, value.toText) :: (← pairs rest)

def fields : Reply → Except Failure (List (String × String))
  | error line => .error (.ofLine line)
  | missing => .ok []
  | scalar _ => .error (.incompatible "map")
  | list items => pairs items

/-- A count below two to the 64th. A number is taken modulo that; a text has to
be such a count in decimals. -/
def count : Reply → Except Failure Nat
  | error line => .error (.ofLine line)
  | scalar (.number value) => .ok (value % UInt64.size).toNat
  | scalar (.text value) | scalar (.status value) =>
    match Text.readCount? value.toList with
    | some count =>
      if count < UInt64.size then .ok count else .error (.incompatible "count")
    | none => .error (.incompatible "count")
  | missing | list _ => .error (.incompatible "count")

/-- Any reply that is no error. -/
def done : Reply → Except Failure Unit
  | error line => .error (.ofLine line)
  | _ => .ok ()

end Reply

end LoopGuard.Keyspace
