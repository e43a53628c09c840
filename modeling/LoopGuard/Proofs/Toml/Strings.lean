import LoopGuard.Toml.Quoted
import LoopGuard.Toml.Text
import Mathlib.Data.List.Basic

/-!
# Reading strings back

What stands between the quotation marks of a string spells it: every character
is written in one of several ways, and between tripled marks up to two marks in
a row stand for themselves. The readers give back the string that is spelled,
the plain and the escaped form of a string spell it as far as they are used, and
so every quoted string is read back.
-/

namespace LoopGuard.Toml

/-- The ways to write a character, apart from a mark that stands for itself. -/
inductive Piece (mark : Char) (tripled : Bool) : List Char → Char → Prop where
  | plain {c : Char} (control : isControl c = false) (other : c ≠ mark)
      (backslash : mark = '"' → c ≠ '\\') : Piece mark tripled [c] c
  | lineEnd (several : tripled = true) : Piece mark tripled ['\n'] '\n'
  | short {c d : Char} (double : mark = '"') (means : shortEscape? d = some c) :
      Piece mark tripled ['\\', d] c
  | code {a b c d e : Char} (double : mark = '"') (means : charOfHex? [a, b, c, d] = some e) :
      Piece mark tripled ['\\', 'u', a, b, c, d] e

/-- The most marks in a row that stand for themselves. -/
def longestMarks (tripled : Bool) : Nat := if tripled then 2 else 0

/-- What is written spells a string, `run` marks being right before it. -/
inductive Spells (mark : Char) (tripled : Bool) : Nat → List Char → List Char → Prop where
  | nil {run : Nat} : Spells mark tripled run [] []
  | piece {run : Nat} {c : Char} {written later text : List Char}
      (first : Piece mark tripled written c) (others : Spells mark tripled 0 later text) :
      Spells mark tripled run (written ++ later) (c :: text)
  | mark {run : Nat} {later text : List Char} (short : run < longestMarks tripled)
      (others : Spells mark tripled (run + 1) later text) :
      Spells mark tripled run (mark :: later) (mark :: text)

variable {mark c : Char} {several : Bool} {run : Nat} {written text rest : List Char}
  {read : List Char → Option (List Char × List Char)}

theorem Piece.exists_cons (piece : Piece mark several written c) (line : mark ≠ '\n') :
    ∃ d later, written = d :: later ∧ d ≠ mark := by
  cases piece with
  | plain _ other => exact ⟨_, _, rfl, other⟩
  | lineEnd => exact ⟨_, _, rfl, line.symm⟩
  | short double => exact ⟨_, _, rfl, by rw [double]; decide⟩
  | code double => exact ⟨_, _, rfl, by rw [double]; decide⟩

/-! ## Readers -/

/-- Up to two marks in front of the closing ones belong to the string. -/
theorem closeTripled_marks (count : Nat) (short : count ≤ 2) (after : rest.head? ≠ some mark) :
    closeTripled mark (List.replicate count mark ++ rest) = (List.replicate count mark, rest) := by
  have other : ∀ c later, rest = c :: later → c ≠ mark := fun c later same here =>
    after (by rw [same, here, List.head?_cons])
  match count, rest with
  | 0, [] => rfl
  | 0, [a] => exact if_neg (other a [] rfl)
  | 0, a :: b :: later => exact if_neg (other a (b :: later) rfl)
  | 1, [] => exact if_pos rfl
  | 1, a :: later => exact (if_pos rfl).trans (if_neg (other a later rfl))
  | 2, rest => exact (if_pos rfl).trans (if_pos rfl)

/-- A reader that takes in whatever a piece stands for. -/
def TakesIn (mark : Char) (tripled : Bool) (read : List Char → Option (List Char × List Char)) :
    Prop :=
  ∀ {written : List Char} {c : Char}, Piece mark tripled written c →
    ∀ rest, read (written ++ rest) = push? (some c) (read rest)

theorem readBasic_takesIn : TakesIn '"' false readBasic := by
  intro written c piece rest
  cases piece with
  | plain control other backslash =>
    rw [List.singleton_append, readBasic.eq_def]
    split <;> simp_all
  | lineEnd absurd => cases absurd
  | short _ means =>
    simp only [shortEscape?] at means
    split at means <;> cases means <;> rfl
  | code _ means => rw [← means]; rfl

theorem readLiteral_takesIn : TakesIn '\'' false readLiteral := by
  intro written c piece rest
  cases piece with
  | plain control other backslash =>
    rw [List.singleton_append, readLiteral.eq_def]
    split <;> simp_all
  | lineEnd absurd => cases absurd
  | short absurd => cases absurd
  | code absurd => cases absurd

theorem readTripledBasic_takesIn : TakesIn '"' true (readTripledBasic false) := by
  intro written c piece rest
  cases piece with
  | plain control other backslash =>
    have noReturn : c ≠ '\r' := by rintro rfl; cases control
    rw [List.singleton_append, readTripledBasic.eq_def]
    split <;> simp_all
  | lineEnd => rfl
  | short _ means =>
    simp only [shortEscape?] at means
    split at means <;> cases means <;> rfl
  | code _ means => rw [← means]; rfl

theorem readTripledLiteral_takesIn : TakesIn '\'' true readTripledLiteral := by
  intro written c piece rest
  cases piece with
  | plain control other backslash =>
    have noReturn : c ≠ '\r' := by rintro rfl; cases control
    rw [List.singleton_append, readTripledLiteral.eq_def]
    split <;> simp_all
  | lineEnd => rfl
  | short absurd => cases absurd
  | code absurd => cases absurd

theorem Spells.read_single (takesIn : TakesIn mark false read)
    (close : ∀ rest, read (mark :: rest) = some ([], rest))
    (spells : Spells mark false run written text) :
    read (written ++ mark :: rest) = some (text, rest) := by
  induction spells with
  | nil => exact close rest
  | piece first _ ih => rw [List.append_assoc, takesIn first, ih, push?]
  | mark short => cases short

theorem Spells.read_tripled (takesIn : TakesIn mark true read) (line : mark ≠ '\n')
    (close : ∀ rest, read (mark :: mark :: mark :: rest) = some (closeTripled mark rest))
    (own : ∀ rest, (∀ later, rest ≠ mark :: mark :: later) →
      read (mark :: rest) = push? (some mark) (read rest))
    (after : rest.head? ≠ some mark) (spells : Spells mark true run written text) :
    read (written ++ mark :: mark :: mark :: rest) = some (text, rest) := by
  have ends (count : Nat) (short : count ≤ 2) :
      read (mark :: mark :: mark :: (List.replicate count mark ++ rest)) =
        some (List.replicate count mark, rest) := by
    rw [close, closeTripled_marks count short after]
  induction spells with
  | nil => exact ends 0 (by decide)
  | piece first _ ih => rw [List.append_assoc, takesIn first, ih, push?]
  | mark short others ih =>
    -- The mark closes the string only if nothing but one more mark stands behind it.
    cases others with
    | nil => exact ends 1 (by decide)
    | piece first _ =>
      obtain ⟨d, later, rfl, other⟩ := first.exists_cons line
      rw [List.cons_append, own, ih, push?]
      exact fun _ same => other (List.cons.inj same).1
    | mark shorter others =>
      cases others with
      | nil => exact ends 2 (by decide)
      | piece first _ =>
        obtain ⟨d, later, rfl, other⟩ := first.exists_cons line
        rw [List.cons_append, own, ih, push?]
        exact fun _ same => other (List.cons.inj (List.cons.inj same).2).1
      | mark shortest =>
        rw [longestMarks, if_pos rfl] at shortest
        omega

theorem readTripledBasic_mark (alone : ∀ later, rest ≠ '"' :: '"' :: later) :
    readTripledBasic false ('"' :: rest) = push? (some '"') (readTripledBasic false rest) := by
  rw [readTripledBasic.eq_def]
  split
  next same => cases same
  next same => exact absurd (List.cons.inj same).2 (alone _)
  all_goals
    rename_i same
    cases same
  rfl

theorem readTripledLiteral_mark (alone : ∀ later, rest ≠ '\'' :: '\'' :: later) :
    readTripledLiteral ('\'' :: rest) = push? (some '\'') (readTripledLiteral rest) := by
  rw [readTripledLiteral.eq_def]
  split
  next same => cases same
  next same => exact absurd (List.cons.inj same).2 (alone _)
  all_goals
    rename_i same
    cases same
  rfl

/-! ## Writers -/

theorem le_longestRunFrom (c : Char) (current : Nat) (text : List Char) :
    current ≤ longestRunFrom c current text := by
  induction text generalizing current with
  | nil => exact Nat.le_refl current
  | cons d text ih =>
    rw [longestRunFrom]
    split
    · exact Nat.le_trans (Nat.le_succ current) (ih (current + 1))
    · exact Nat.le_max_left ..

/-- A string spells itself if no run of marks is too long and every other
character may stand for itself. -/
theorem Spells.self (marks : longestRunFrom mark run text ≤ longestMarks several)
    (plain : ∀ c ∈ text, c ≠ mark → Piece mark several [c] c) :
    Spells mark several run text text := by
  induction text generalizing run with
  | nil => exact .nil
  | cons c text ih =>
    have others : ∀ d ∈ text, d ≠ mark → Piece mark several [d] d := fun d inside =>
      plain d (.tail _ inside)
    rw [longestRunFrom] at marks
    split at marks
    next same =>
      subst same
      have short := Nat.le_trans (le_longestRunFrom c (run + 1) text) marks
      exact .mark short (ih marks others)
    next other =>
      have later := Nat.le_trans (Nat.le_max_right ..) marks
      exact .piece (plain c List.mem_cons_self other) (ih later others)

theorem isControl_eq_false (plain : needsEscape c = false) (line : c ≠ '\n') :
    isControl c = false := by
  rw [needsEscape, Bool.or_eq_false_iff, decide_eq_true line, Bool.and_true] at plain
  rw [isControl, plain.1, plain.2]
  rfl

/-- When a string spells itself between some marks. -/
theorem Spells.plain (control : ∀ c ∈ text, needsEscape c = false)
    (backslash : mark = '"' → '\\' ∉ text) (lines : several = false → '\n' ∉ text)
    (marks : longestRun mark text ≤ longestMarks several) : Spells mark several 0 text text := by
  refine .self marks fun c inside other => ?_
  by_cases line : c = '\n'
  · subst line
    refine .lineEnd ?_
    cases several with
    | false => exact absurd inside (lines rfl)
    | true => rfl
  · exact .plain (isControl_eq_false (control c inside) line) other fun double same =>
      backslash double (same ▸ inside)

theorem toNat_lt_of_needsEscape (control : needsEscape c = true) : c.toNat < 128 := by
  rw [needsEscape, Bool.or_eq_true, Bool.and_eq_true] at control
  rcases control with ⟨below, _⟩ | delete
  · exact Nat.lt_trans (of_decide_eq_true below : c < ' ') (by decide)
  · rw [of_decide_eq_true delete]
    decide

theorem charOfHex?_hexFour {n : Nat} (small : n < 128) :
    charOfHex? (hexFour n) = some (Char.ofNat n) := by
  revert small n
  decide +kernel

theorem exists_piece_escapeFrom (other : c ≠ '"') (several : Bool) (run : Nat) (text : List Char) :
    ∃ written, Piece '"' several written c ∧
      escapeFrom several run (c :: text) = written ++ escapeFrom several 0 text := by
  rw [escapeFrom, if_neg other]
  dsimp only
  split
  next same => subst same; exact ⟨['\\', '\\'], .short rfl rfl, rfl⟩
  next backslash =>
  split
  next same => subst same; exact ⟨['\\', 'b'], .short rfl rfl, rfl⟩
  split
  next same => subst same; exact ⟨['\\', 't'], .short rfl rfl, rfl⟩
  split
  next same => subst same; exact ⟨['\\', 'f'], .short rfl rfl, rfl⟩
  split
  next same => subst same; exact ⟨['\\', 'r'], .short rfl rfl, rfl⟩
  split
  next same =>
    subst same
    split
    next lines => exact ⟨['\n'], .lineEnd lines, rfl⟩
    next => exact ⟨['\\', 'n'], .short rfl rfl, rfl⟩
  next line =>
  split
  next control =>
    refine ⟨'\\' :: 'u' :: hexFour c.toNat, .code rfl ?_, rfl⟩
    have decoded := charOfHex?_hexFour (toNat_lt_of_needsEscape control)
    rwa [Char.ofNat_toNat] at decoded
  next control =>
    refine ⟨[c], .plain (isControl_eq_false ?_ line) other fun _ => backslash, rfl⟩
    simpa using control

theorem Spells.escapeFrom (several : Bool) (run : Nat) (text : List Char) :
    Spells '"' several run (escapeFrom several run text) text := by
  induction text generalizing run with
  | nil => exact .nil
  | cons c text ih =>
    by_cases same : c = '"'
    · subst same
      rw [Toml.escapeFrom, if_pos rfl]
      split
      next short =>
        rw [Bool.and_eq_true, decide_eq_true_eq] at short
        exact .mark (by rw [longestMarks, if_pos short.1]; exact short.2) (ih _)
      next => exact .piece (.short (d := '"') rfl rfl) (ih 0)
    · obtain ⟨written, piece, escaped⟩ := exists_piece_escapeFrom same several run text
      rw [escaped]
      exact .piece piece (ih 0)

/-- What a way to write a string asks of the string. -/
def Quoting.Suits (text : List Char) : Quoting → Prop
  | .basic => Spells '"' false 0 text text
  | .literal => Spells '\'' false 0 text text
  | .tripledBasic => Spells '"' true 0 text text
  | .tripledLiteral => Spells '\'' true 0 text text
  | .escaped _ => True

theorem Quoting.of_suits (text : List Char) : (Quoting.of text).Suits text := by
  rw [Quoting.of]
  split
  next basic =>
    obtain ⟨⟨⟨control, backslash⟩, marks⟩, lines⟩ := by simpa using basic
    exact .plain control (fun _ => backslash) (fun _ => lines) (Nat.le_of_eq marks)
  split
  next literal =>
    obtain ⟨⟨control, marks⟩, lines⟩ := by simpa using literal
    exact .plain control (fun double => nomatch double) (fun _ => lines) (Nat.le_of_eq marks)
  split
  next basic =>
    obtain ⟨⟨control, backslash⟩, marks⟩ := by simpa using basic
    exact .plain control (fun _ => backslash) (fun single => nomatch single) marks
  split
  next literal =>
    obtain ⟨control, marks⟩ := by simpa using literal
    exact .plain control (fun double => nomatch double) (fun single => nomatch single) marks
  next => trivial

/-! ## Quoted strings -/

theorem lineEnd?_eq_none (absent : '\n' ∉ text) (line : mark ≠ '\n') (ret : mark ≠ '\r') :
    lineEnd? (text ++ mark :: rest) = none := by
  rw [lineEnd?.eq_def]
  split
  next same =>
    cases text with
    | nil => exact absurd (List.cons.inj same).1 line
    | cons c text =>
      cases same
      exact absurd List.mem_cons_self absent
  next same =>
    match text with
    | [] => exact absurd (List.cons.inj same).1 ret
    | [c] => exact absurd (List.cons.inj (List.cons.inj same).2).1 line
    | c :: d :: text =>
      cases same
      exact absurd (.tail _ List.mem_cons_self) absent
  next => rfl

theorem skipFirstLineEnd_append (lines : Bool) (absent : lines = false → '\n' ∉ written)
    (line : mark ≠ '\n') (ret : mark ≠ '\r') :
    skipFirstLineEnd ((if lines then ['\n'] else []) ++ (written ++ mark :: rest)) =
      written ++ mark :: rest := by
  cases lines with
  | true => rfl
  | false =>
    rw [if_neg Bool.false_ne_true, List.nil_append, skipFirstLineEnd,
      lineEnd?_eq_none (absent rfl) line ret, Option.getD_none]

/-- A string in single marks is not mistaken for one in tripled marks. -/
theorem Spells.ne_two_marks (spells : Spells mark false run written text) (line : mark ≠ '\n')
    (later : List Char) : written ++ mark :: '\n' :: rest ≠ mark :: mark :: later := by
  cases spells with
  | nil => exact fun same => line (List.cons.inj (List.cons.inj same).2).1.symm
  | piece first _ =>
    obtain ⟨d, others, rfl, other⟩ := first.exists_cons line
    exact fun same => other (List.cons.inj same).1
  | mark short => cases short

theorem readText?_basic (spells : Spells '"' false 0 written text) :
    readText? ('"' :: (written ++ '"' :: '\n' :: rest)) = some (text, '\n' :: rest) := by
  rw [readText?.eq_def]
  split
  next same => exact absurd (List.cons.inj same).2 (spells.ne_two_marks (by decide) _)
  next same =>
    cases same
    exact spells.read_single readBasic_takesIn fun _ => rfl
  next same => cases same
  next same => cases same
  next other _ _ => exact absurd rfl (other _)

theorem readText?_literal (spells : Spells '\'' false 0 written text) :
    readText? ('\'' :: (written ++ '\'' :: '\n' :: rest)) = some (text, '\n' :: rest) := by
  rw [readText?.eq_def]
  split
  next same => cases same
  next same => cases same
  next same => exact absurd (List.cons.inj same).2 (spells.ne_two_marks (by decide) _)
  next same =>
    cases same
    exact spells.read_single readLiteral_takesIn fun _ => rfl
  next other => exact absurd rfl (other _)

theorem tripled_append (mark : Char) (lines : Bool) (written rest : List Char) :
    tripled mark lines written ++ rest = mark :: mark :: mark ::
      ((if lines then ['\n'] else []) ++ (written ++ mark :: mark :: mark :: rest)) := by
  simp [tripled]

theorem readText?_tripledBasic {lines : Bool} (spells : Spells '"' true 0 written text)
    (absent : lines = false → '\n' ∉ written) :
    readText? (tripled '"' lines written ++ '\n' :: rest) = some (text, '\n' :: rest) := by
  rw [tripled_append, readText?, skipFirstLineEnd_append lines absent (by decide) (by decide)]
  exact spells.read_tripled readTripledBasic_takesIn (by decide) (fun _ => rfl)
    (fun _ => readTripledBasic_mark) nofun

theorem readText?_tripledLiteral {lines : Bool} (spells : Spells '\'' true 0 written text)
    (absent : lines = false → '\n' ∉ written) :
    readText? (tripled '\'' lines written ++ '\n' :: rest) = some (text, '\n' :: rest) := by
  rw [tripled_append, readText?, skipFirstLineEnd_append lines absent (by decide) (by decide)]
  exact spells.read_tripled readTripledLiteral_takesIn (by decide) (fun _ => rfl)
    (fun _ => readTripledLiteral_mark) nofun

/-- Every string is read back from its quoted form, up to the end of its line. -/
theorem readText?_quote (text rest : List Char) :
    readText? (quote text ++ '\n' :: rest) = some (text, '\n' :: rest) := by
  have suits := Quoting.of_suits text
  have absent : text.contains '\n' = false → '\n' ∉ text := by simp
  rw [quote]
  cases form : Quoting.of text with
  | basic =>
    rw [form] at suits
    simpa using readText?_basic suits
  | literal =>
    rw [form] at suits
    simpa using readText?_literal suits
  | tripledBasic =>
    rw [form] at suits
    exact readText?_tripledBasic suits absent
  | tripledLiteral =>
    rw [form] at suits
    exact readText?_tripledLiteral suits absent
  | escaped lines =>
    cases lines with
    | true => exact readText?_tripledBasic (.escapeFrom true 0 text) nofun
    | false => simpa using readText?_basic (.escapeFrom false 0 text)

-- The first of the four marks at the end belongs to the string.
example : quote "'\"".toList = "\"\"\"'\"\"\"\"".toList := by decide

end LoopGuard.Toml
