/-!
# Similarity of words

The Jaro similarity of two words lies between zero and one. Characters match
when they are equal and not too far apart, each with one partner only; the
similarity is the mean of the share of matched characters in either word and of
the share of matches that are in order. It is kept as an exact fraction.
-/

namespace LoopGuard.Text

/-- A fraction, with a denominator that is not zero. -/
structure Fraction where
  numerator : Nat
  denominator : Nat
deriving Repr

def Fraction.exceeds (a b : Fraction) : Bool :=
  b.numerator * a.denominator < a.numerator * b.denominator

/-- Marks the first character at positions from `first` to `last` that equals
`c` and has no partner yet; tells whether there is one. -/
def claim (c : Char) (first last : Nat) (position : Nat) :
    List (Char × Bool) → Bool × List (Char × Bool)
  | [] => (false, [])
  | (d, taken) :: rest =>
    if first ≤ position && position ≤ last && c == d && !taken then (true, (d, true) :: rest)
    else
      let (found, rest) := claim c first last (position + 1) rest
      (found, (d, taken) :: rest)

/-- Finds partners for the characters of a word from a position on; gives those
that have one, and the other word with its partners marked. -/
def pairUp (reach : Nat) (position : Nat) :
    List Char → List (Char × Bool) → List Char × List (Char × Bool)
  | [], other => ([], other)
  | c :: rest, other =>
    let (found, other) := claim c (position - reach) (position + reach) 0 other
    let (matched, other) := pairUp reach (position + 1) rest other
    (if found then c :: matched else matched, other)

def similarity (a b : List Char) : Fraction :=
  if a.isEmpty && b.isEmpty then ⟨1, 1⟩
  else
    let reach := max a.length b.length / 2 - 1
    let (left, marked) := pairUp reach 0 a (b.map fun c => (c, false))
    let right := (marked.filter (·.2)).map (·.1)
    let matched := left.length
    let swapped := ((left.zip right).filter fun (c, d) => c ≠ d).length / 2
    if matched = 0 then ⟨0, 1⟩
    else
      let sizes := a.length * b.length
      ⟨matched * matched * (a.length + b.length) + (matched - swapped) * sizes,
        3 * sizes * matched⟩

/-- Of the candidates that are more similar to a word than `least`, the most
similar one, and of equally similar ones the last. -/
def mostSimilar? (least : Fraction) (word : String) (candidates : List String) : Option String :=
  let close := (candidates.map fun candidate =>
      (candidate, similarity word.toList candidate.toList)).filter (·.2.exceeds least)
  let best := close.foldl
    (fun best next =>
      match best with
      | none => some next
      | some current => if current.2.exceeds next.2 then some current else some next)
    none
  best.map (·.1)

end LoopGuard.Text
