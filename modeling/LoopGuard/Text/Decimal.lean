/-!
# Reading numbers

A numeral is a run of digits of some base, written out in full: no sign, no
blank and no separator belongs to it.
-/

namespace LoopGuard.Text

/-- The value of a digit: letters in either case follow the ten figures. -/
def digitValue? (c : Char) : Option Nat :=
  if '0' ≤ c ∧ c ≤ '9' then some (c.toNat - '0'.toNat)
  else if 'a' ≤ c ∧ c ≤ 'z' then some (c.toNat - 'a'.toNat + 10)
  else if 'A' ≤ c ∧ c ≤ 'Z' then some (c.toNat - 'A'.toNat + 10)
  else none

def digitBelow? (base : Nat) (c : Char) : Option Nat :=
  (digitValue? c).filter (· < base)

/-- The number that the digits continue, given the value of those before. -/
def readDigitsFrom? (base value : Nat) : List Char → Option Nat
  | [] => some value
  | c :: rest => do readDigitsFrom? base (value * base + (← digitBelow? base c)) rest

/-- The number that a non-empty run of digits stands for. -/
def readNumeral? (base : Nat) (text : List Char) : Option Nat :=
  if text.isEmpty then none else readDigitsFrom? base 0 text

/-- The natural number that decimal digits stand for, after an optional plus
sign. -/
def readCount? : List Char → Option Nat
  | '+' :: digits => readNumeral? 10 digits
  | digits => readNumeral? 10 digits

/-- The integer that decimal digits stand for, after an optional sign. -/
def readInteger? : List Char → Option Int
  | '-' :: digits => (readNumeral? 10 digits).map fun n => -n
  | text => (readCount? text).map fun n => n

end LoopGuard.Text
