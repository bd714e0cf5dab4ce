import KeyIntake.Text.Blank
import Mathlib.Data.List.TakeWhile
/-!
# Trimming and lowering

What is left of a text when the characters of a class are trimmed from its ends, and which
characters have no lower case of their own.

## Main results

* `Text.exists_trimBy` — what is trimmed from a text stands at its ends.
* `Text.trimBy_append` — whatever of a class stands at the ends of a text is trimmed.
* `Text.head?_trimBy`, `Text.getLast?_trimBy` — nothing more is to be trimmed then.
* `Text.trimBy_eq_self`, `Text.trimBy_eq_nil_iff` — texts of which nothing or everything is trimmed.
-/

set_option relaxedAutoImplicit false
set_option autoImplicit false

namespace KeyIntake

namespace Text

variable {p : Char → Bool} {cs : List Char}

/-! ### Trimming -/

/-- A text that begins with a character that stays keeps its front. -/
lemma dropWhile_eq_self (hfirst : ∀ c ∈ cs.head?, p c = false) : cs.dropWhile p = cs := by
  cases cs with
  | nil => rfl
  | cons c cs => rw [List.dropWhile_cons, hfirst c rfl, if_neg Bool.false_ne_true]

/-- A text that begins and ends with characters that stay is trimmed already. -/
lemma trimBy_eq_self (hfirst : ∀ c ∈ cs.head?, p c = false)
    (hlast : ∀ c ∈ cs.getLast?, p c = false) : trimBy p cs = cs := by
  rw [← List.head?_reverse] at hlast
  rw [trimBy, dropWhile_eq_self hfirst, trimEndBy, dropWhile_eq_self hlast, List.reverse_reverse]

/-- Nothing is left of a text by trimming iff all of it is trimmed. -/
lemma trimBy_eq_nil_iff : trimBy p cs = [] ↔ ∀ c ∈ cs, p c = true := by
  rw [trimBy, trimEndBy, List.reverse_eq_nil_iff, List.dropWhile_eq_nil_iff]
  constructor
  · intro hrest
    rw [← List.dropWhile_eq_nil_iff]
    cases hdrop : cs.dropWhile p with
    | nil => rfl
    | cons c rest =>
      -- what stands behind the front is not trimmed
      have hstays := List.head?_dropWhile_not p cs
      rw [hdrop] at hstays
      have hc : p c = true := hrest c (by rw [hdrop]; simp)
      simp [hc] at hstays
  · intro hall c hc
    exact hall c ((List.dropWhile_sublist p).subset (List.mem_reverse.mp hc))

/-- What is trimmed from a text stands at its ends. -/
lemma exists_trimBy (p : Char → Bool) (cs : List Char) :
    ∃ front back, cs = front ++ (trimBy p cs ++ back) ∧ (∀ c ∈ front, p c = true) ∧
      ∀ c ∈ back, p c = true := by
  refine ⟨cs.takeWhile p, ((cs.dropWhile p).reverse.takeWhile p).reverse, ?_, fun c hc => ?_,
    fun c hc => ?_⟩
  · rw [trimBy, trimEndBy, ← List.reverse_append, List.takeWhile_append_dropWhile,
      List.reverse_reverse, List.takeWhile_append_dropWhile]
  · exact List.mem_takeWhile_imp hc
  · exact List.mem_takeWhile_imp (List.mem_reverse.mp hc)

/-- **Whatever of a class stands at the ends of a text is trimmed.** -/
lemma trimBy_append {front back : List Char} (hfront : ∀ c ∈ front, p c = true)
    (hback : ∀ c ∈ back, p c = true) : trimBy p (front ++ (cs ++ back)) = trimBy p cs := by
  rw [trimBy, trimBy, List.dropWhile_append_of_pos hfront]
  by_cases hcs : ∀ c ∈ cs, p c = true
  · have hall : ∀ c ∈ cs ++ back, p c = true := by
      intro c hc
      rcases List.mem_append.mp hc with hc | hc
      · exact hcs c hc
      · exact hback c hc
    rw [List.dropWhile_eq_nil_iff.mpr hall, List.dropWhile_eq_nil_iff.mpr hcs]
  · rw [List.dropWhile_append, if_neg, trimEndBy, trimEndBy, List.reverse_append,
      List.dropWhile_append_of_pos fun c hc => hback c (List.mem_reverse.mp hc)]
    rwa [List.isEmpty_iff, List.dropWhile_eq_nil_iff]

/-- What is left by trimming begins with a character that stays. -/
lemma head?_trimBy : ∀ c ∈ (trimBy p cs).head?, p c = false := by
  intro c hc
  have hfront : trimBy p cs <+: cs.dropWhile p := by
    rw [trimBy, trimEndBy, ← List.reverse_suffix, List.reverse_reverse]
    exact List.dropWhile_suffix p
  obtain ⟨tail, htail⟩ := List.head?_eq_some_iff.mp hc
  obtain ⟨rest, hrest⟩ := hfront
  have hstays := List.head?_dropWhile_not p cs
  rwa [← hrest, htail, List.cons_append, List.head?_cons] at hstays

/-- What is left by trimming the end ends with a character that stays. -/
lemma getLast?_trimEndBy : ∀ c ∈ (trimEndBy p cs).getLast?, p c = false := by
  intro c hc
  rw [trimEndBy, List.getLast?_reverse, Option.mem_def] at hc
  have hstays := List.head?_dropWhile_not p cs.reverse
  rwa [hc] at hstays

/-- What is left by trimming ends with a character that stays. -/
lemma getLast?_trimBy : ∀ c ∈ (trimBy p cs).getLast?, p c = false := getLast?_trimEndBy

/-- What is trimmed from the end of a text stands there. -/
lemma exists_trimEndBy (p : Char → Bool) (cs : List Char) :
    ∃ back, cs = trimEndBy p cs ++ back ∧ ∀ c ∈ back, p c = true := by
  refine ⟨(cs.reverse.takeWhile p).reverse, ?_, fun c hc => ?_⟩
  · rw [trimEndBy, ← List.reverse_append, List.takeWhile_append_dropWhile, List.reverse_reverse]
  · exact List.mem_takeWhile_imp (List.mem_reverse.mp hc)

/-! ### Lower case -/

/-- What comes before the capital letters, or after them, has no case. -/
lemma toLower_eq_self {c : Char} (h : c.toNat < 'A'.toNat ∨ 'Z'.toNat < c.toNat) :
    c.toLower = c := by
  have hno : ¬ (c.val ≥ 'A'.val ∧ c.val ≤ 'Z'.val) := by
    rintro ⟨hge, hle⟩
    have hlower : 'A'.toNat ≤ c.toNat := hge
    have hupper : c.toNat ≤ 'Z'.toNat := hle
    omega
  exact dif_neg hno

/-- Digits have no case. -/
lemma toLower_of_isDigit {c : Char} (h : c.isDigit = true) : c.toLower = c := by
  obtain ⟨-, hle⟩ := Bool.and_eq_true_iff.mp h
  have hnine : c.toNat ≤ '9'.toNat := of_decide_eq_true hle
  exact toLower_eq_self (.inl (Nat.lt_of_le_of_lt hnine (by decide)))

/-- Characters outside ASCII have no case. -/
lemma toLower_of_le {c : Char} (h : 128 ≤ c.toNat) : c.toLower = c :=
  toLower_eq_self (.inr (Nat.lt_of_lt_of_le (by decide) h))

end Text

end KeyIntake
