import LoopGuard.Toml.Value
import Mathlib.Data.List.TakeDrop

/-!
# Reading integers back

The decimals of a number have no underscore and no needless zero in front, so
they are read as this number, with a minus sign as its negative. A value that
ends with its line ends with the token that it is written in.
-/

namespace LoopGuard

variable {n : Nat} {c : Char} {word rest : List Char}

namespace Text

theorem digitBelow?_of_isDigit (digit : c.isDigit = true) :
    digitBelow? 10 c = some (c.toNat - '0'.toNat) := by
  have bounds : '0' ≤ c ∧ c ≤ '9' := by
    simp only [Char.isDigit, Bool.and_eq_true, decide_eq_true_eq] at digit
    exact digit
  have small : c.toNat ≤ '9'.toNat := bounds.2
  rw [digitBelow?, digitValue?, if_pos bounds, Option.filter_some, if_pos]
  simp only [Char.reduceToNat] at small ⊢
  exact decide_eq_true (by omega)

theorem readDigitsFrom?_of_isDigit (digits : ∀ c ∈ word, c.isDigit = true) (value : Nat) :
    readDigitsFrom? 10 value word = some (Nat.ofDigitChars 10 word value) := by
  induction word generalizing value with
  | nil => rfl
  | cons c word ih =>
    rw [readDigitsFrom?, digitBelow?_of_isDigit (digits c List.mem_cons_self),
      Nat.ofDigitChars_cons, Nat.mul_comm 10]
    exact ih (fun d inside => digits d (.tail _ inside)) _

theorem isDigit_of_mem_decimals (inside : c ∈ Nat.toDigits 10 n) : c.isDigit = true :=
  Nat.isDigit_of_mem_toDigits (by decide) (by decide) inside

theorem readNumeral?_decimals (n : Nat) : readNumeral? 10 (Nat.toDigits 10 n) = some n := by
  rw [readNumeral?, if_neg (by simp [Nat.toDigits_ne_nil]),
    readDigitsFrom?_of_isDigit fun _ => isDigit_of_mem_decimals, Nat.ofDigitChars_ten_toDigits]

end Text

namespace Toml

open Text

/-- Zero apart, a number does not start with a zero. -/
theorem head?_decimals_ne_zero (positive : 0 < n) : (Nat.toDigits 10 n).head? ≠ some '0' := by
  induction n using Nat.strongRecOn with
  | ind n ih =>
    rw [Nat.toDigits_eq_if (by decide)]
    split
    next single =>
      rw [List.head?_cons, ne_eq, Option.some_inj, Nat.digitChar_eq_zero]
      exact Nat.ne_of_gt positive
    next several =>
      rw [List.head?_append, Option.or_of_isSome (by simp [Nat.toDigits_ne_nil])]
      exact ih (n / 10) (by omega) (by omega)

theorem ungroup?_of_isDigit (digits : ∀ c ∈ word, c.isDigit = true) (inhabited : word ≠ []) :
    ungroup? Char.isDigit word = some word := by
  induction word with
  | nil => exact absurd rfl inhabited
  | cons c word ih =>
    have first := digits c List.mem_cons_self
    have later : ∀ d ∈ word, d.isDigit = true := fun d inside => digits d (.tail _ inside)
    rw [ungroup?.eq_def]
    split
    next same => cases same
    next same =>
      cases same
      rw [if_pos first]
    next same =>
      cases same
      exact absurd (later '_' List.mem_cons_self) (by decide)
    next several _ same =>
      cases same
      rw [if_pos first, ih later several, Option.map_some]

theorem wholeDigits?_decimals (n : Nat) :
    wholeDigits? (Nat.toDigits 10 n) = some (Nat.toDigits 10 n) := by
  rw [wholeDigits?.eq_def]
  split
  next d later digits =>
    -- A zero with more digits behind it is neither zero nor a positive number.
    rcases Nat.eq_zero_or_pos n with rfl | positive
    · cases digits
    · exact absurd (by rw [digits, List.head?_cons]) (head?_decimals_ne_zero positive)
  next => exact ungroup?_of_isDigit (fun _ => isDigit_of_mem_decimals) Nat.toDigits_ne_nil

theorem integer?_decimals (n : Nat) : integer? (Nat.toDigits 10 n) = some (Int.ofNat n) := by
  have absent {d : Char} (other : d.isDigit = false) : d ∉ Nat.toDigits 10 n := fun inside => by
    rw [isDigit_of_mem_decimals inside] at other
    cases other
  rw [integer?.eq_def]
  split
  next digits => exact absurd (by simp [digits]) (absent (d := 'x') (by decide))
  next digits => exact absurd (by simp [digits]) (absent (d := 'o') (by decide))
  next digits => exact absurd (by simp [digits]) (absent (d := 'b') (by decide))
  next digits => exact absurd (by simp [digits]) (absent (d := '-') (by decide))
  next digits => exact absurd (by simp [digits]) (absent (d := '+') (by decide))
  next =>
    rw [wholeDigits?_decimals, Option.bind_some, readNumeral?_decimals, Option.map_some]

theorem integer?_minus_decimals (n : Nat) :
    integer? ('-' :: Nat.toDigits 10 n) = some (-(n : Int)) := by
  rw [integer?, wholeDigits?_decimals, Option.bind_some, readNumeral?_decimals]
  rfl

/-! ## Tokens -/

theorem token_append (inside : ∀ c ∈ word, isTokenChar c = true) :
    token (word ++ '\n' :: rest) = (word, '\n' :: rest) := by
  have cut : (word ++ '\n' :: rest).span isTokenChar = (word, '\n' :: rest) := by
    rw [List.span_eq_takeWhile_dropWhile, List.takeWhile_append_of_pos inside,
      List.dropWhile_append_of_pos inside, List.takeWhile_cons_of_neg (by decide),
      List.dropWhile_cons_of_neg (by decide), List.append_nil]
  rw [token, cut]
  rfl

theorem ofToken?_of_integer? {value : Int} (read : integer? word = some value) :
    ofToken? word = some (.integer value) := by
  have noWord : word ≠ "true".toList ∧ word ≠ "false".toList := by
    constructor <;> (rintro rfl; revert read; exact fun read => nomatch read)
  rw [ofToken?, if_neg noWord.1, if_neg noWord.2, read]

theorem readValue?_token {value : Value} (inside : ∀ c ∈ word, isTokenChar c = true)
    (inhabited : word ≠ []) (read : ofToken? word = some value) (fuel depth : Nat) :
    readValue? (fuel + 1) depth (word ++ '\n' :: rest) = some (value, '\n' :: rest) := by
  obtain ⟨c, later, rfl⟩ := List.exists_cons_of_ne_nil inhabited
  have first : isTokenChar c = true := inside c List.mem_cons_self
  rw [readValue?.eq_def]
  dsimp only [List.cons_append]
  split
  next same => cases same; cases first
  next same => cases same; cases first
  next same => cases same; cases first
  next same => cases same; cases first
  next =>
    rw [← List.cons_append, token_append inside, read]
    rfl

theorem isTokenChar_of_isDigit (digit : c.isDigit = true) : isTokenChar c = true := by
  simp [isTokenChar, Char.isAlphanum, digit]

end Toml

end LoopGuard
