import LoopGuard.Text.Decimal

/-!
# Reading TOML numbers and dates

A number or a date is a run of characters without a blank, except that one
space may stand between a date and a time. Single underscores may stand between
digits. What a float or a date is worth is never asked for; a float only has to
lie in the range of finite double-precision numbers wherever it is looked at,
and a date has to be one of the calendar.
-/

namespace LoopGuard.Toml

def ungroup? (isDigit : Char → Bool) : List Char → Option (List Char)
  | [] => none
  | [c] => if isDigit c then some [c] else none
  | c :: '_' :: rest => if isDigit c then (ungroup? isDigit rest).map (c :: ·) else none
  | c :: rest => if isDigit c then (ungroup? isDigit rest).map (c :: ·) else none

/-- A natural number in some base, with underscores. -/
def grouped? (base : Nat) (text : List Char) : Option Nat :=
  (ungroup? (fun c => (Text.digitBelow? base c).isSome) text).bind (Text.readNumeral? base)

/-- Decimal digits without their underscores; only zero itself starts with a
zero. -/
def wholeDigits? : List Char → Option (List Char)
  | '0' :: _ :: _ => none
  | text => ungroup? Char.isDigit text

/-- The integer that a text stands for. Only decimals have a sign. -/
def integer? : List Char → Option Int
  | '0' :: 'x' :: digits => (grouped? 16 digits).map Int.ofNat
  | '0' :: 'o' :: digits => (grouped? 8 digits).map Int.ofNat
  | '0' :: 'b' :: digits => (grouped? 2 digits).map Int.ofNat
  | '-' :: text => do return -(← (wholeDigits? text).bind (Text.readNumeral? 10) : Nat)
  | '+' :: text => ((wholeDigits? text).bind (Text.readNumeral? 10)).map Int.ofNat
  | text => ((wholeDigits? text).bind (Text.readNumeral? 10)).map Int.ofNat

/-! ## Floats -/

/-- The text without a sign that it may start with. -/
def dropSign : List Char → List Char
  | '+' :: text => text
  | '-' :: text => text
  | text => text

/-- The least number that is rounded to infinity: half a unit above the
greatest finite double-precision number. -/
def overflowBound : Nat := Nat.pow 2 1024 - Nat.pow 2 970

/-- Whether `mantissa * 10 ^ exponent` is rounded to a finite number. The number
of digits of the mantissa settles all but a few exponents. -/
def isFinite (mantissa : Nat) (exponent : Int) : Bool :=
  let digits : Int := (Nat.toDigits 10 mantissa).length
  if mantissa = 0 then true
  else if exponent + digits ≤ 300 then true
  else if 400 < exponent + digits then false
  else if 0 ≤ exponent then mantissa * Nat.pow 10 exponent.toNat < overflowBound
  else mantissa < overflowBound * Nat.pow 10 (-exponent).toNat

/-- The parts before and after the first `e` of either case. -/
def cutExponent (text : List Char) : List Char × Option (List Char) :=
  match text.span fun c => c ≠ 'e' && c ≠ 'E' with
  | (mantissa, []) => (mantissa, none)
  | (mantissa, _ :: exponent) => (mantissa, some exponent)

def cutPoint (text : List Char) : List Char × Option (List Char) :=
  match text.span fun c => c ≠ '.' with
  | (whole, []) => (whole, none)
  | (whole, _ :: fraction) => (whole, some fraction)

/-- An exponent: decimal digits with an optional sign. -/
def exponent? : List Char → Option Int
  | '-' :: text => do return -(← grouped? 10 text : Nat)
  | '+' :: text => (grouped? 10 text).map Int.ofNat
  | text => (grouped? 10 text).map Int.ofNat

/-- Tells of an unsigned float whether it is finite. A fraction or an exponent
makes a float of a number. -/
def unsignedFloat? (text : List Char) : Option Bool := do
  let (mantissa, exponent) := cutExponent text
  let (whole, fraction) := cutPoint mantissa
  if fraction.isNone && exponent.isNone then none
  else
    let wholeDigits ← wholeDigits? whole
    let fractionDigits ← match fraction with
      | none => some []
      | some digits => ungroup? Char.isDigit digits
    let power ← match exponent with
      | none => some 0
      | some text => exponent? text
    let value ← Text.readNumeral? 10 (wholeDigits ++ fractionDigits)
    return isFinite value (power - fractionDigits.length)

/-- Tells of a float whether its decimals are finite; infinity and a missing
number are written as words and pass as well. -/
def float? (text : List Char) : Option Bool :=
  let unsigned := dropSign text
  if unsigned = "inf".toList ∨ unsigned = "nan".toList then some true
  else unsignedFloat? unsigned

/-! ## Dates and times -/

/-- A decimal number of exactly so many digits, and what follows. -/
def fixed? (width : Nat) (text : List Char) : Option (Nat × List Char) := do
  let digits := text.take width
  if digits.length = width ∧ digits.all Char.isDigit then
    return (← Text.readNumeral? 10 digits, text.drop width)
  else none

/-- The text after a character that it has to start with. -/
def expect? (c : Char) : List Char → Option (List Char)
  | d :: rest => if d = c then some rest else none
  | [] => none

def daysOfMonth (year month : Nat) : Nat :=
  if month = 2 then
    if year % 4 = 0 ∧ (year % 100 ≠ 0 ∨ year % 400 = 0) then 29 else 28
  else if month = 4 ∨ month = 6 ∨ month = 9 ∨ month = 11 then 30
  else 31

def afterDate? (text : List Char) : Option (List Char) := do
  let (year, text) ← fixed? 4 text
  let (month, text) ← fixed? 2 (← expect? '-' text)
  let (day, text) ← fixed? 2 (← expect? '-' text)
  if 1 ≤ month ∧ month ≤ 12 ∧ 1 ≤ day ∧ day ≤ daysOfMonth year month then some text else none

/-- What follows the fraction of a second, if there is one. -/
def afterFraction? : List Char → Option (List Char)
  | '.' :: c :: rest => if c.isDigit then some (rest.dropWhile Char.isDigit) else none
  | ['.'] => none
  | text => some text

/-- What follows a time of day, which may leave its seconds out. -/
def afterTime? (text : List Char) : Option (List Char) := do
  let (hour, text) ← fixed? 2 text
  let (minute, text) ← fixed? 2 (← expect? ':' text)
  if 23 < hour ∨ 59 < minute then none
  else
    match text with
    | ':' :: rest =>
      let (second, text) ← fixed? 2 rest
      if 60 < second then none else afterFraction? text
    | _ => some text

/-- Whether the text is an offset from universal time, or empty. -/
def isOffset : List Char → Bool
  | [] | ['Z'] | ['z'] => true
  | c :: text =>
    (c = '+' || c = '-') &&
      (do
        let (hour, text) ← fixed? 2 text
        let (minute, text) ← fixed? 2 (← expect? ':' text)
        return text.isEmpty && hour ≤ 23 && minute ≤ 59).getD false

def isDatetime (text : List Char) : Bool :=
  match afterDate? text with
  | some [] => true
  | some (c :: rest) => (c = 'T' || c = 't' || c = ' ') && (afterTime? rest).any isOffset
  | none => (afterTime? text).any List.isEmpty

/-! ## Tokens -/

def isTokenChar (c : Char) : Bool :=
  c.isAlphanum || c = '+' || c = '-' || c = '_' || c = '.' || c = ':'

/-- The run of token characters at the start of a text, and what follows. A
space between a date and a digit belongs to the run. -/
def token (text : List Char) : List Char × List Char :=
  match text.span isTokenChar with
  | (first, ' ' :: d :: rest) =>
    if d.isDigit && afterDate? first = some [] then
      let (second, rest) := (d :: rest).span isTokenChar
      (first ++ ' ' :: second, rest)
    else (first, ' ' :: d :: rest)
  | tokens => tokens

end LoopGuard.Toml
