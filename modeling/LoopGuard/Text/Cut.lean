/-!
# Cutting and searching text

Texts are searched as lists of characters. `cutAt?` cuts at the first
separator and leaves the separator out, `withoutPrefix?` takes a beginning off,
and `occursIn` looks for a word anywhere.
-/

namespace LoopGuard.Text

/-- The parts before and after the first `separator`, if there is one. -/
def cutAt? (separator : Char) : List Char → Option (List Char × List Char)
  | [] => none
  | c :: rest =>
    if c = separator then some ([], rest)
    else (cutAt? separator rest).map fun (before, after) => (c :: before, after)

/-- What follows `beginning` in a text that starts with it. -/
def withoutPrefix? (beginning text : String) : Option String :=
  (beginning.toList.isPrefixOf? text.toList).map String.ofList

def occursIn (word : List Char) : List Char → Bool
  | [] => word.isEmpty
  | c :: rest => word.isPrefixOf (c :: rest) || occursIn word rest

/-- The pieces between separators, in order; a text without one is one piece. -/
def splitAll (separator : Char) : List Char → List (List Char)
  | [] => [[]]
  | c :: rest =>
    if c = separator then [] :: splitAll separator rest
    else match splitAll separator rest with
      | [] => [[c]]
      | piece :: pieces => (c :: piece) :: pieces

end LoopGuard.Text
