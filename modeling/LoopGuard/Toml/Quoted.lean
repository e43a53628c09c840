import LoopGuard.Toml.Layout

/-!
# Writing TOML strings

A string is written in the plainest form that can hold it: in double quotes, in
single quotes, in tripled quotes of either kind, and with escapes only when
nothing else will do. What decides is whether it has control characters,
backslashes or line ends, and its longest runs of quotes.
-/

namespace LoopGuard.Toml

/-- The length of the longest run of a character, given the length of the run
that has just been read. -/
def longestRunFrom (c : Char) (current : Nat) : List Char → Nat
  | [] => current
  | d :: rest =>
    if d = c then longestRunFrom c (current + 1) rest
    else max current (longestRunFrom c 0 rest)

/-- The length of the longest run of a character. -/
def longestRun (c : Char) (text : List Char) : Nat := longestRunFrom c 0 text

/-- A control character that only an escape can hold. Line ends are apart. -/
def needsEscape (c : Char) : Bool := (c < ' ' && c ≠ '\n') || c = '\x7f'

/-- The ways to write a string. -/
inductive Quoting where
  | basic
  | literal
  | tripledBasic
  | tripledLiteral
  /-- With escapes, in tripled quotes if the string has several lines. -/
  | escaped (tripled : Bool)
deriving DecidableEq, Repr

/-- The plainest way to write a string. -/
def Quoting.of (text : List Char) : Quoting :=
  let control := text.any needsEscape
  let lines := text.contains '\n'
  let backslash := text.contains '\\'
  let double := longestRun '"' text
  let single := longestRun '\'' text
  if !control && !backslash && double = 0 && !lines then .basic
  else if !control && single = 0 && !lines then .literal
  else if !control && !backslash && double ≤ 2 then .tripledBasic
  else if !control && single ≤ 2 then .tripledLiteral
  else .escaped lines

def hexDigit (n : Nat) : Char := "0123456789ABCDEF".toList.getD n '0'

def hexFour (n : Nat) : List Char :=
  [hexDigit (n / 4096 % 16), hexDigit (n / 256 % 16), hexDigit (n / 16 % 16), hexDigit (n % 16)]

/-- Writes the characters of a string with escapes; `quotes` is the number of
double quotes right before. In a string of several lines every third quote in a
row is escaped, otherwise every quote. -/
def escapeFrom (tripled : Bool) (quotes : Nat) : List Char → List Char
  | [] => []
  | c :: rest =>
    if c = '"' then
      if tripled && quotes < 2 then '"' :: escapeFrom tripled (quotes + 1) rest
      else '\\' :: '"' :: escapeFrom tripled 0 rest
    else
      let later := escapeFrom tripled 0 rest
      if c = '\\' then '\\' :: '\\' :: later
      else if c = '\x08' then '\\' :: 'b' :: later
      else if c = '\t' then '\\' :: 't' :: later
      else if c = '\x0c' then '\\' :: 'f' :: later
      else if c = '\r' then '\\' :: 'r' :: later
      else if c = '\n' then if tripled then '\n' :: later else '\\' :: 'n' :: later
      else if needsEscape c then '\\' :: 'u' :: (hexFour c.toNat ++ later)
      else c :: later

/-- Puts a string between tripled quotes. One with several lines starts on a
line of its own. -/
def tripled (quote : Char) (lines : Bool) (body : List Char) : List Char :=
  [quote, quote, quote] ++ (if lines then ['\n'] else []) ++ body ++ [quote, quote, quote]

def quote (text : List Char) : List Char :=
  let lines := text.contains '\n'
  match Quoting.of text with
  | .basic => '"' :: text ++ ['"']
  | .literal => '\'' :: text ++ ['\'']
  | .tripledBasic => tripled '"' lines text
  | .tripledLiteral => tripled '\'' lines text
  | .escaped true => tripled '"' true (escapeFrom true 0 text)
  | .escaped false => '"' :: escapeFrom false 0 text ++ ['"']

end LoopGuard.Toml
