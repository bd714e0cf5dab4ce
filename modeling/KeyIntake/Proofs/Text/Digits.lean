import KeyIntake.Word
import Mathlib.Tactic.Common
/-!
# What numerals denote

A run of decimal digits denotes the number with these digits, and nothing else is a numeral. An
unsigned word is written as such a run, with or without a plus sign in front, if its number is small
enough.

## Main definitions

* `Word.Denotes` — a text denotes an unsigned word.

## Main results

* `Text.numeral?_eq_some_iff` — what a numeral denotes.
* `Word.ofText?_eq_some_iff` — which texts are read as words.
-/

set_option relaxedAutoImplicit false
set_option autoImplicit false

namespace KeyIntake

namespace Text

/-- The decimal digits are the characters with a value below ten. -/
lemma hexValue?_lt_ten_iff {c : Char} {d : Nat} :
    hexValue? c = some d ∧ d < 10 ↔ c.isDigit = true ∧ c.toNat - '0'.toNat = d := by
  have hdigit : c.isDigit = true ↔ '0' ≤ c ∧ c ≤ '9' := by simp [Char.isDigit, Char.le_def]
  rw [hdigit, hexValue?]
  by_cases hc : '0' ≤ c ∧ c ≤ '9'
  · have hle : c.toNat ≤ 57 := hc.2
    have hzero : '0'.toNat = 48 := rfl
    rw [if_pos hc, Option.some.injEq, and_iff_right hc]
    omega
  · -- the values of the letters begin with ten
    rw [if_neg hc]
    split_ifs <;> simp [hc] <;> omega

/-- A text is read on top of a number iff it is made of decimal digits. -/
lemma numeralIn?_ten_eq_some_iff {read n : Nat} {cs : List Char} :
    numeralIn? 10 read cs = some n ↔
      (∀ c ∈ cs, c.isDigit = true) ∧ Nat.ofDigitChars 10 cs read = n := by
  induction cs generalizing read with
  | nil => simp [numeralIn?]
  | cons c cs ih =>
    rw [numeralIn?, List.forall_mem_cons, Nat.ofDigitChars_cons, Nat.mul_comm 10 read]
    cases hvalue : hexValue? c with
    | none =>
      have hno : ¬ c.isDigit = true := by
        intro hc
        have hsome := (hexValue?_lt_ten_iff.mpr ⟨hc, rfl⟩).1
        rw [hvalue] at hsome
        cases hsome
      simp [hno]
    | some d =>
      dsimp only
      by_cases hd : d < 10
      · obtain ⟨hc, hdigit⟩ := hexValue?_lt_ten_iff.mp ⟨hvalue, hd⟩
        rw [if_pos hd, ih, hdigit, and_assoc, and_iff_right hc]
      · have hno : ¬ c.isDigit = true := by
          intro hc
          obtain ⟨hsome, hlt⟩ := hexValue?_lt_ten_iff.mpr ⟨hc, rfl⟩
          rw [hvalue] at hsome
          exact hd (Option.some.inj hsome ▸ hlt)
        simp [hd, hno]

/-- **A numeral is a run of decimal digits**, and denotes the number that has them. -/
theorem numeral?_eq_some_iff {cs : List Char} {n : Nat} :
    numeral? cs = some n ↔
      cs ≠ [] ∧ (∀ c ∈ cs, c.isDigit = true) ∧ Nat.ofDigitChars 10 cs 0 = n := by
  cases cs with
  | nil => simp [numeral?]
  | cons c cs =>
    rw [numeral?, List.isEmpty_cons, if_neg Bool.false_ne_true, numeralIn?_ten_eq_some_iff]
    simp

end Text

namespace Word

/-- **A text denotes an unsigned word**: it is a run of decimal digits, leading zeros included, with
or without a plus sign in front, and the number that has these digits has no more than 64 bits. -/
def Denotes (text : String) (n : Nat) : Prop :=
  ∃ digits, (text.toList = digits ∨ text.toList = '+' :: digits) ∧ digits ≠ [] ∧
    (∀ c ∈ digits, c.isDigit = true) ∧ Nat.ofDigitChars 10 digits 0 = n ∧ n < limit

/-- Digits are read as the word that they denote. -/
lemma filter_numeral?_eq_some_iff {digits : List Char} {n : Nat} :
    (Text.numeral? digits).filter (· < limit) = some n ↔
      digits ≠ [] ∧ (∀ c ∈ digits, c.isDigit = true) ∧ Nat.ofDigitChars 10 digits 0 = n ∧
        n < limit := by
  rw [Option.filter_eq_some_iff, decide_eq_true_eq, Text.numeral?_eq_some_iff]
  simp only [and_assoc]

/-- **A text is read as the word that it denotes**, and is not read if it denotes none. -/
theorem ofText?_eq_some_iff {text : String} {n : Nat} :
    ofText? text.toList = some n ↔ Denotes text n := by
  unfold ofText?
  constructor
  · intro h
    dsimp only at h
    split at h
    next rest heq => exact ⟨rest, .inr heq, filter_numeral?_eq_some_iff.mp h⟩
    next => exact ⟨_, .inl rfl, filter_numeral?_eq_some_iff.mp h⟩
  · rintro ⟨digits, heq | heq, hdigits⟩
    · dsimp only
      split
      next rest hplus =>
        -- a plus sign is no digit
        rw [heq] at hplus
        rw [hplus] at hdigits
        exact absurd (hdigits.2.1 '+' List.mem_cons_self) (by decide)
      next =>
        rw [heq]
        exact filter_numeral?_eq_some_iff.mpr hdigits
    · rw [heq]
      exact filter_numeral?_eq_some_iff.mpr hdigits

end Word

end KeyIntake
