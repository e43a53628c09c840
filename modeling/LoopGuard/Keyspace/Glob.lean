import LoopGuard.Keyspace.Names

/-!
# Glob patterns

A glob describes a set of keys: a star stands for any text, a question mark for
any one character, brackets for one character of a class, and a backslash takes
the next character literally. `Glob.escape` writes a text as a pattern that
only this text matches.
-/

namespace LoopGuard.Keyspace.Glob

/-- A member of a bracket class: all characters from the first to the last. -/
structure Span where
  first : Char
  last : Char
deriving DecidableEq, Repr

/-- Whether the character lies in the span, whichever way round it is given. -/
def Span.contains (span : Span) (c : Char) : Bool :=
  (span.first ≤ c && c ≤ span.last) || (span.last ≤ c && c ≤ span.first)

/-- One part of a pattern. -/
inductive Part where
  /-- Any text. -/
  | anyText
  /-- Any one character. -/
  | anyChar
  /-- One character inside, or outside, a class. -/
  | oneOf (inside : Bool) (spans : List Span)
  /-- Exactly this character. -/
  | literal (c : Char)
deriving DecidableEq, Repr

/-- Reads the members of a class up to its closing bracket, or to the end of
the pattern where that is missing; gives the members and what follows. -/
def classOf : List Char → List Span × List Char
  | [] => ([], [])
  | ']' :: rest => ([], rest)
  | '\\' :: c :: rest => (classOf rest).map (⟨c, c⟩ :: ·) id
  | a :: '-' :: b :: rest => (classOf rest).map (⟨a, b⟩ :: ·) id
  | c :: rest => (classOf rest).map (⟨c, c⟩ :: ·) id

theorem length_classOf (pattern : List Char) :
    (classOf pattern).2.length ≤ pattern.length := by
  fun_induction classOf pattern with
  | case1 => exact Nat.le_refl _
  | case2 rest => exact Nat.le_succ _
  | case3 c rest ih => exact Nat.le_succ_of_le (Nat.le_succ_of_le ih)
  | case4 a b rest _ _ ih => exact Nat.le_succ_of_le (Nat.le_succ_of_le (Nat.le_succ_of_le ih))
  | case5 c rest _ _ _ ih => exact Nat.le_succ_of_le ih

def parts : List Char → List Part
  | [] => []
  | '*' :: rest => .anyText :: parts rest
  | '?' :: rest => .anyChar :: parts rest
  | '\\' :: c :: rest => .literal c :: parts rest
  | '[' :: '^' :: rest => .oneOf false (classOf rest).1 :: parts (classOf rest).2
  | '[' :: rest => .oneOf true (classOf rest).1 :: parts (classOf rest).2
  | c :: rest => .literal c :: parts rest
termination_by pattern => pattern.length
decreasing_by
  · exact Nat.lt_succ_self _
  · exact Nat.lt_succ_self _
  · exact Nat.lt_succ_of_lt (Nat.lt_succ_self _)
  · exact Nat.lt_succ_of_lt (Nat.lt_succ_of_le (length_classOf rest))
  · exact Nat.lt_succ_of_le (length_classOf rest)
  · exact Nat.lt_succ_self _

/-- Whether a predicate holds of some end of the text, the whole included. -/
def someEnd (p : List Char → Bool) : List Char → Bool
  | [] => p []
  | c :: rest => p (c :: rest) || someEnd p rest

def matchParts : List Part → List Char → Bool
  | [], text => text.isEmpty
  | .anyText :: later, text => someEnd (matchParts later) text
  | .anyChar :: later, text =>
    match text with
    | [] => false
    | _ :: rest => matchParts later rest
  | .oneOf inside spans :: later, text =>
    match text with
    | [] => false
    | c :: rest => (spans.any (·.contains c) == inside) && matchParts later rest
  | .literal d :: later, text =>
    match text with
    | [] => false
    | c :: rest => c == d && matchParts later rest

def isMatch (pattern key : String) : Bool := matchParts (parts pattern.toList) key.toList

/-- Whether the character means something in a pattern. -/
def isMeta (c : Char) : Bool := c == '*' || c == '?' || c == '[' || c == ']' || c == '\\'

/-- The pattern that only the given characters match. -/
def escapeChars : List Char → List Char
  | [] => []
  | c :: rest => if isMeta c then '\\' :: c :: escapeChars rest else c :: escapeChars rest

/-- The pattern that only this text matches. -/
def escape (text : String) : String := String.ofList (escapeChars text.toList)

end Glob

def statusPattern : String := statusKey "*"

/-- The pattern of every key that begins with a text. -/
def patternOfPrefix (beginning : String) : String := Glob.escape beginning ++ "*"

end LoopGuard.Keyspace
