import LoopGuard.Keyspace.Glob
import Mathlib.Data.List.Basic

/-!
# What patterns match

`Glob.Matches` says which texts the parts of a pattern stand for, and matching decides
it (`isMatch_iff_matches`). A text that is escaped stands for itself, whatever
characters it has, so the pattern of a beginning matches exactly the texts that begin
so. The pattern of the status table is the pattern of its beginning.
-/

namespace LoopGuard.Keyspace

namespace Glob

variable {c : Char} {text later key : List Char}

/-- The parts, one after the other, stand for the text. -/
inductive Matches : List Part → List Char → Prop
  | nil : Matches [] []
  | anyText {later : List Part} {rest : List Char} (skipped : List Char) :
    Matches later rest → Matches (.anyText :: later) (skipped ++ rest)
  | anyChar {later : List Part} {rest : List Char} (c : Char) :
    Matches later rest → Matches (.anyChar :: later) (c :: rest)
  | oneOf {later : List Part} {rest : List Char} {inside : Bool} {spans : List Span} (c : Char) :
    (inside = true ↔ ∃ span ∈ spans, span.contains c = true) →
    Matches later rest → Matches (.oneOf inside spans :: later) (c :: rest)
  | literal {later : List Part} {rest : List Char} (c : Char) :
    Matches later rest → Matches (.literal c :: later) (c :: rest)

theorem someEnd_eq_true_iff {p : List Char → Bool} :
    someEnd p text = true ↔ ∃ skipped rest, text = skipped ++ rest ∧ p rest = true := by
  induction text with
  | nil => simp [someEnd]
  | cons c text ih =>
    rw [someEnd, Bool.or_eq_true, ih]
    constructor
    · intro found
      rcases found with whole | ⟨skipped, rest, same, holds⟩
      · exact ⟨[], c :: text, rfl, whole⟩
      · exact ⟨c :: skipped, rest, by rw [same, List.cons_append], holds⟩
    · intro ⟨skipped, rest, same, holds⟩
      cases skipped with
      | nil => exact .inl (same ▸ holds)
      | cons d skipped =>
        cases same
        exact .inr ⟨skipped, rest, rfl, holds⟩

theorem matchParts_eq_true_iff {parts : List Part} :
    matchParts parts text = true ↔ Matches parts text := by
  induction parts generalizing text with
  | nil =>
    rw [matchParts, List.isEmpty_iff]
    constructor
    · intro empty
      exact empty ▸ .nil
    · intro found
      cases found
      rfl
  | cons part later ih =>
    cases part with
    | anyText =>
      simp only [matchParts, someEnd_eq_true_iff, ih]
      constructor
      · intro ⟨skipped, rest, same, found⟩
        exact same ▸ .anyText skipped found
      · intro found
        cases found with
        | anyText skipped found => exact ⟨skipped, _, rfl, found⟩
    | anyChar =>
      cases text with
      | nil => exact ⟨(nomatch ·), (nomatch ·)⟩
      | cons c rest =>
        simp only [matchParts, ih]
        constructor
        · exact .anyChar c
        · intro found
          cases found with
          | anyChar _ found => exact found
    | oneOf inside spans =>
      cases text with
      | nil => exact ⟨(nomatch ·), (nomatch ·)⟩
      | cons c rest =>
        have listed : (spans.any (·.contains c) == inside) = true ↔
            (inside = true ↔ ∃ span ∈ spans, span.contains c = true) := by
          rw [beq_iff_eq, ← List.any_eq_true]
          cases spans.any (·.contains c) <;> cases inside <;> simp
        simp only [matchParts, Bool.and_eq_true, ih, listed]
        constructor
        · intro ⟨member, found⟩
          exact .oneOf c member found
        · intro found
          cases found with
          | oneOf _ member found => exact ⟨member, found⟩
    | literal d =>
      cases text with
      | nil => exact ⟨(nomatch ·), (nomatch ·)⟩
      | cons c rest =>
        simp only [matchParts, Bool.and_eq_true, beq_iff_eq, ih]
        constructor
        · intro ⟨same, found⟩
          exact same ▸ .literal c found
        · intro found
          cases found with
          | literal _ found => exact ⟨rfl, found⟩

/-- Matching decides what the parts of the pattern stand for. -/
theorem isMatch_iff_matches {pattern key : String} :
    isMatch pattern key = true ↔ Matches (parts pattern.toList) key.toList :=
  matchParts_eq_true_iff

/-- Characters that stand for themselves take as many off the text. -/
theorem matches_literals_append {later : List Part} :
    Matches (text.map .literal ++ later) key ↔ ∃ rest, key = text ++ rest ∧ Matches later rest := by
  induction text generalizing key with
  | nil => simp
  | cons d text ih =>
    constructor
    · intro found
      cases found with
      | literal _ found =>
        rcases ih.1 found with ⟨rest, same, found⟩
        exact ⟨rest, by rw [same, List.cons_append], found⟩
    · intro ⟨rest, same, found⟩
      subst same
      exact .literal d (ih.2 ⟨rest, rfl, found⟩)

theorem matches_anyText (text : List Char) : Matches [.anyText] text := by
  have whole : Matches [.anyText] (text ++ []) := .anyText text .nil
  rwa [List.append_nil] at whole

theorem parts_escaped (c : Char) (rest : List Char) :
    parts ('\\' :: c :: rest) = .literal c :: parts rest := by
  rw [parts]

theorem parts_plain (plain : isMeta c = false) (rest : List Char) :
    parts (c :: rest) = .literal c :: parts rest := by
  simp only [isMeta, Bool.or_eq_false_iff, beq_eq_false_iff_ne] at plain
  obtain ⟨⟨⟨⟨star, mark⟩, bracket⟩, -⟩, slash⟩ := plain
  rw [parts]
  · exact star
  · exact mark
  · rintro _ _ rfl
    exact absurd rfl slash
  · rintro _ rfl
    exact absurd rfl bracket
  · exact bracket

/-- An escaped text is read as its characters. -/
theorem parts_escapeChars_append (text later : List Char) :
    parts (escapeChars text ++ later) = text.map .literal ++ parts later := by
  induction text with
  | nil => rfl
  | cons c rest ih =>
    rw [escapeChars]
    split
    next => simp only [List.cons_append, parts_escaped, ih, List.map_cons]
    next plain =>
      simp only [List.cons_append, parts_plain (Bool.eq_false_iff.2 plain), ih, List.map_cons]

end Glob

/-- The pattern of a beginning matches the texts that begin so. -/
theorem isMatch_patternOfPrefix {beginning key : String} :
    Glob.isMatch (patternOfPrefix beginning) key = true ↔ ∃ rest, key = beginning ++ rest := by
  have pattern : Glob.parts (patternOfPrefix beginning).toList =
      beginning.toList.map .literal ++ [.anyText] := by
    have star : Glob.parts "*".toList = [.anyText] := by
      rw [show "*".toList = '*' :: [] from rfl, Glob.parts, Glob.parts]
    rw [patternOfPrefix, Glob.escape, String.toList_append, String.toList_ofList,
      Glob.parts_escapeChars_append, star]
  rw [Glob.isMatch_iff_matches, pattern, Glob.matches_literals_append]
  constructor
  · rintro ⟨rest, text, -⟩
    exact ⟨String.ofList rest, by
      rw [← String.toList_inj, text, String.toList_append, String.toList_ofList]⟩
  · rintro ⟨rest, rfl⟩
    exact ⟨rest.toList, String.toList_append, Glob.matches_anyText _⟩

theorem statusPattern_eq : statusPattern = patternOfPrefix (statusKey "") := by
  decide

end LoopGuard.Keyspace
