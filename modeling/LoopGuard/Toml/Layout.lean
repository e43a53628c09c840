/-!
# Layout of a TOML text

Between the tokens of a line stand blanks; between lines, and inside brackets,
also line ends and comments. A line ends with a line feed, which a carriage
return may precede. Other control characters stand nowhere.
-/

namespace LoopGuard.Toml

def isBlank (c : Char) : Bool := c = ' ' || c = '\t'

/-- A control character other than a tab. -/
def isControl (c : Char) : Bool := (c < ' ' && c ≠ '\t') || c = '\x7f'

def skipBlanks (text : List Char) : List Char := text.dropWhile isBlank

/-- The text after a line end that it starts with. -/
def lineEnd? : List Char → Option (List Char)
  | '\n' :: rest => some rest
  | '\r' :: '\n' :: rest => some rest
  | _ => none

/-- The text after a comment, from its line end on. -/
def skipComment : List Char → Option (List Char)
  | [] => some []
  | '\n' :: rest => some ('\n' :: rest)
  | '\r' :: '\n' :: rest => some ('\n' :: rest)
  | c :: rest => if isControl c then none else skipComment rest

/-- The text after the rest of a line, in which nothing but a comment stands. -/
def finishLine (text : List Char) : Option (List Char) :=
  match skipBlanks text with
  | [] => some []
  | '#' :: rest => (skipComment rest).map (·.drop 1)
  | rest => lineEnd? rest

/-- The text after blanks, line ends and comments; `comment` tells whether it
starts inside a comment. -/
def skipLines (comment : Bool) : List Char → Option (List Char)
  | [] => some []
  | '\n' :: rest => skipLines false rest
  | '\r' :: '\n' :: rest => skipLines false rest
  | c :: rest =>
    if comment then if isControl c then none else skipLines true rest
    else if isBlank c then skipLines false rest
    else if c = '#' then skipLines true rest
    else some (c :: rest)

end LoopGuard.Toml
