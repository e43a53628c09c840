import LoopGuard.Text.Decimal

/-!
# JSON values

A JSON text is read into a tree. Of numbers and truth values nothing is ever
asked, so only their form is checked. An escape may write half of a surrogate
pair, which is no character; a text with such a half is kept as `none`, so that
it can stand where nobody looks at it.
-/

namespace LoopGuard.Json

/-- A JSON value. -/
inductive Value where
  | null
  | boolean
  | number
  | text (value : Option String)
  | array (items : List Value)
  | object (fields : List (Option String × Value))
deriving Repr, Inhabited

/-! ## Tokens -/

/-- A character that may stand between tokens. -/
def isSpace (c : Char) : Bool := c = ' ' || c = '\t' || c = '\n' || c = '\r'

def skipSpaces (text : List Char) : List Char := text.dropWhile isSpace

/-- The text after a word that it has to start with. -/
def expectWord? (word : String) (text : List Char) : Option (List Char) :=
  word.toList.isPrefixOf? text

/-- A text as far as it is read: its characters, unless it has half of a
surrogate pair, and what follows its closing quote. -/
abbrev ReadText := Option (Option (List Char) × List Char)

/-- Puts a character in front of a text that was read; `none` stands for half of
a surrogate pair. -/
def pushChar (c : Option Char) (later : ReadText) : ReadText :=
  later.map fun (text, rest) => (do return (← c) :: (← text), rest)

/-- The character that a one-letter escape stands for. -/
def shortEscape? : Char → Option Char
  | '"' => some '"'
  | '\\' => some '\\'
  | '/' => some '/'
  | 'b' => some '\x08'
  | 'f' => some '\x0c'
  | 'n' => some '\n'
  | 'r' => some '\r'
  | 't' => some '\t'
  | _ => none

/-- The character that two halves of a surrogate pair stand for. -/
def pair? (high low : Nat) : Option Char :=
  if 0xD800 ≤ high ∧ high < 0xDC00 ∧ 0xDC00 ≤ low ∧ low < 0xE000 then
    some (Char.ofNat (0x10000 + (high - 0xD800) * 0x400 + (low - 0xDC00)))
  else none

/-- The character with this code, unless it is half of a surrogate pair. -/
def single? (code : Nat) : Option Char :=
  if code.isValidChar then some (Char.ofNat code) else none

/-- Whether a code is the first half of a surrogate pair. -/
def isHigh (code : Nat) : Bool := 0xD800 ≤ code && code < 0xDC00

/-- Puts the first half of a surrogate pair in front of a text that was read, if
there is one left without its second half. -/
def settleHigh (high : Option Nat) (later : ReadText) : ReadText :=
  if high.isSome then pushChar none later else later

/-- Reads the rest of a text behind its opening quote, or behind the first half
of a surrogate pair. -/
def readText (high : Option Nat) : List Char → ReadText
  | [] => none
  | '"' :: rest => settleHigh high (some (some [], rest))
  | '\\' :: 'u' :: a :: b :: c :: d :: rest =>
    match Text.readNumeral? 16 [a, b, c, d] with
    | none => none
    | some code =>
      match high.bind (pair? · code) with
      | some c => pushChar (some c) (readText none rest)
      | none =>
        settleHigh high
          (if isHigh code then readText (some code) rest
            else pushChar (single? code) (readText none rest))
  | '\\' :: c :: rest =>
    match shortEscape? c with
    | some c => settleHigh high (pushChar (some c) (readText none rest))
    | none => none
  | c :: rest =>
    if c < ' ' then none else settleHigh high (pushChar (some c) (readText none rest))

/-- The text after a run of digits, of which there has to be one at least. -/
def skipDigits? : List Char → Option (List Char)
  | c :: rest => if c.isDigit then some (rest.dropWhile Char.isDigit) else none
  | [] => none

/-- The text after the whole part of a number, which has no needless zero. -/
def skipWhole? : List Char → Option (List Char)
  | '0' :: rest => some rest
  | text => skipDigits? text

/-- The text after a fraction that it may start with. -/
def skipFraction? : List Char → Option (List Char)
  | '.' :: rest => skipDigits? rest
  | text => some text

/-- The text after a sign that it may start with. -/
def skipSign : List Char → List Char
  | '+' :: rest => rest
  | '-' :: rest => rest
  | text => text

/-- The text after an exponent that it may start with. -/
def skipExponent? : List Char → Option (List Char)
  | 'e' :: rest => skipDigits? (skipSign rest)
  | 'E' :: rest => skipDigits? (skipSign rest)
  | text => some text

def skipNumber? (text : List Char) : Option (List Char) := do
  let whole ← skipWhole? (match text with
    | '-' :: rest => rest
    | text => text)
  skipExponent? (← skipFraction? whole)

/-! ## Trees -/

mutual

/-- Reads a value behind its leading spaces, in at most `fuel` steps. -/
def readValue? (fuel : Nat) (text : List Char) : Option (Value × List Char) :=
  match fuel with
  | 0 => none
  | fuel + 1 =>
    match skipSpaces text with
    | '"' :: rest =>
      (readText none rest).map fun (text, rest) => (.text (text.map String.ofList), rest)
    | '[' :: rest =>
      match skipSpaces rest with
      | ']' :: rest => some (.array [], rest)
      | rest => (readItems? fuel rest).map fun (items, rest) => (.array items, rest)
    | '{' :: rest =>
      match skipSpaces rest with
      | '}' :: rest => some (.object [], rest)
      | rest => (readFields? fuel rest).map fun (fields, rest) => (.object fields, rest)
    | 'n' :: rest => (expectWord? "ull" rest).map fun rest => (.null, rest)
    | 't' :: rest => (expectWord? "rue" rest).map fun rest => (.boolean, rest)
    | 'f' :: rest => (expectWord? "alse" rest).map fun rest => (.boolean, rest)
    | text => (skipNumber? text).map fun rest => (.number, rest)

/-- Reads the items of an array that has some, up to its closing bracket. -/
def readItems? (fuel : Nat) (text : List Char) : Option (List Value × List Char) :=
  match fuel with
  | 0 => none
  | fuel + 1 => do
    let (item, rest) ← readValue? fuel text
    match skipSpaces rest with
    | ']' :: rest => return ([item], rest)
    | ',' :: rest =>
      let (items, rest) ← readItems? fuel rest
      return (item :: items, rest)
    | _ => none

/-- Reads the fields of an object that has some, up to its closing brace. -/
def readFields? (fuel : Nat) (text : List Char) :
    Option (List (Option String × Value) × List Char) :=
  match fuel with
  | 0 => none
  | fuel + 1 =>
    match skipSpaces text with
    | '"' :: rest => do
      let (name, rest) ← readText none rest
      match skipSpaces rest with
      | ':' :: rest =>
        let (value, rest) ← readValue? fuel rest
        let field := (name.map String.ofList, value)
        match skipSpaces rest with
        | '}' :: rest => return ([field], rest)
        | ',' :: rest =>
          let (fields, rest) ← readFields? fuel rest
          return (field :: fields, rest)
        | _ => none
      | _ => none
    | _ => none

end

/-- Reads a text that is one value, with nothing but spaces around it. -/
def readDocument? (text : String) : Option Value := do
  let chars := text.toList
  let (value, rest) ← readValue? (2 * chars.length + 2) chars
  if (skipSpaces rest).isEmpty then some value else none

/-! ## Records -/

/-- The value of the field with this name, if there is exactly one. -/
def theField? (fields : List (Option String × Value)) (name : String) : Option Value :=
  match fields.filter fun field => field.1 = some name with
  | [field] => some field.2
  | _ => none

/-- The values of a record with these fields: an object with each of them once,
or an array with just their values in order. Other fields of an object are
passed over, but all names have to be texts. -/
def record? (names : List String) : Value → Option (List Value)
  | .object fields =>
    if fields.all fun field => field.1.isSome then names.mapM (theField? fields) else none
  | .array items => if items.length = names.length then some items else none
  | _ => none

/-- A text without halves of surrogate pairs. -/
def asText? : Value → Option String
  | .text value => value
  | _ => none

/-- The texts of a record whose fields are all texts. -/
def texts? (names : List String) (value : Value) : Option (List String) :=
  (record? names value).bind (·.mapM asText?)

end LoopGuard.Json
