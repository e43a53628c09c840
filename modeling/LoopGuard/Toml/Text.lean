import LoopGuard.Text.Decimal
import LoopGuard.Toml.Layout

/-!
# Reading TOML strings

A string stands in single or in tripled quotes. Between double quotes a
backslash starts an escape; between single quotes every character stands for
itself. Between tripled quotes a string may span lines: a line end right after
the opening quotes is left out, as is everything from a backslash at the end of
a line up to the next character that is no blank, and up to two quotes may
stand right before the closing ones.

Each reader starts behind the opening quotes and gives the string together with
what follows the closing quotes.
-/

namespace LoopGuard.Toml

/-- The character with a code written in hexadecimals, if there is one. -/
def charOfHex? (digits : List Char) : Option Char := do
  let code ← Text.readNumeral? 16 digits
  if code.isValidChar then some (Char.ofNat code) else none

/-- The character that a one-letter escape stands for. -/
def shortEscape? : Char → Option Char
  | 'b' => some '\x08'
  | 't' => some '\t'
  | 'n' => some '\n'
  | 'f' => some '\x0c'
  | 'r' => some '\r'
  | 'e' => some '\x1b'
  | '"' => some '"'
  | '\\' => some '\\'
  | _ => none

/-- Puts a character, if there is one, in front of a string that was read. -/
def push? (c : Option Char) (later : Option (List Char × List Char)) :
    Option (List Char × List Char) :=
  match c, later with
  | some c, some (text, rest) => some (c :: text, rest)
  | _, _ => none

def readBasic : List Char → Option (List Char × List Char)
  | [] => none
  | '"' :: rest => some ([], rest)
  | '\\' :: 'x' :: a :: b :: rest => push? (charOfHex? [a, b]) (readBasic rest)
  | '\\' :: 'u' :: a :: b :: c :: d :: rest => push? (charOfHex? [a, b, c, d]) (readBasic rest)
  | '\\' :: 'U' :: a :: b :: c :: d :: e :: f :: g :: h :: rest =>
    push? (charOfHex? [a, b, c, d, e, f, g, h]) (readBasic rest)
  | '\\' :: c :: rest => push? (shortEscape? c) (readBasic rest)
  | c :: rest => push? (if isControl c then none else some c) (readBasic rest)

def readLiteral : List Char → Option (List Char × List Char)
  | [] => none
  | '\'' :: rest => some ([], rest)
  | c :: rest => push? (if isControl c then none else some c) (readLiteral rest)

/-- The string that ends here, given what follows three quotes: up to two more
quotes belong to it. -/
def closeTripled (quote : Char) : List Char → List Char × List Char
  | a :: b :: rest =>
    if a = quote then if b = quote then ([quote, quote], rest) else ([quote], b :: rest)
    else ([], a :: b :: rest)
  | [a] => if a = quote then ([quote], []) else ([], [a])
  | [] => ([], [])

/-- Whether only blanks stand before the next line end. -/
def endsLine (text : List Char) : Bool := (lineEnd? (skipBlanks text)).isSome

/-- Reads the rest of a string in tripled double quotes; `joining` tells whether
blanks and line ends are being left out. -/
def readTripledBasic (joining : Bool) : List Char → Option (List Char × List Char)
  | [] => none
  | '"' :: '"' :: '"' :: rest => some (closeTripled '"' rest)
  | '\n' :: rest =>
    if joining then readTripledBasic true rest else push? (some '\n') (readTripledBasic false rest)
  | '\r' :: '\n' :: rest =>
    if joining then readTripledBasic true rest
    else push? (some '\r') (push? (some '\n') (readTripledBasic false rest))
  | '\\' :: 'x' :: a :: b :: rest =>
    push? (charOfHex? [a, b]) (readTripledBasic false rest)
  | '\\' :: 'u' :: a :: b :: c :: d :: rest =>
    push? (charOfHex? [a, b, c, d]) (readTripledBasic false rest)
  | '\\' :: 'U' :: a :: b :: c :: d :: e :: f :: g :: h :: rest =>
    push? (charOfHex? [a, b, c, d, e, f, g, h]) (readTripledBasic false rest)
  | '\\' :: '\n' :: rest => readTripledBasic true rest
  | '\\' :: '\r' :: '\n' :: rest => readTripledBasic true rest
  | '\\' :: c :: rest =>
    if isBlank c then if endsLine rest then readTripledBasic true rest else none
    else push? (shortEscape? c) (readTripledBasic false rest)
  | c :: rest =>
    if joining && isBlank c then readTripledBasic true rest
    else push? (if isControl c then none else some c) (readTripledBasic false rest)

/-- Reads the rest of a string in tripled single quotes. -/
def readTripledLiteral : List Char → Option (List Char × List Char)
  | [] => none
  | '\'' :: '\'' :: '\'' :: rest => some (closeTripled '\'' rest)
  | '\n' :: rest => push? (some '\n') (readTripledLiteral rest)
  | '\r' :: '\n' :: rest => push? (some '\r') (push? (some '\n') (readTripledLiteral rest))
  | c :: rest => push? (if isControl c then none else some c) (readTripledLiteral rest)

/-- The text after a line end that it may start with. -/
def skipFirstLineEnd (text : List Char) : List Char := (lineEnd? text).getD text

def readText? : List Char → Option (List Char × List Char)
  | '"' :: '"' :: '"' :: rest => readTripledBasic false (skipFirstLineEnd rest)
  | '"' :: rest => readBasic rest
  | '\'' :: '\'' :: '\'' :: rest => readTripledLiteral (skipFirstLineEnd rest)
  | '\'' :: rest => readLiteral rest
  | _ => none

end LoopGuard.Toml
