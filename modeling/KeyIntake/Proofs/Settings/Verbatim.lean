import KeyIntake.Proofs.Settings.Variable
import KeyIntake.Proofs.Text.Digits
import Mathlib.Data.List.TakeDrop
import Mathlib.Data.List.TakeWhile
/-!
# Values that stand for themselves

Which values of variables are read as the texts that they are. A value is read as something else if
it is written in the notation of values from its first character to its last: as a truth value, a
number, a quoted text or character, a list or a table. Any other value is a text that stands for
itself, whatever there is inside it.

## Main definitions

* `Variable.IsNumber` — numbers in the notation of values.
* `Variable.IsWritten` — the values in the notation that stand for something else.

## Main results

* `Variable.value_eq_text_iff` — which values stand for themselves.
-/

set_option relaxedAutoImplicit false
set_option autoImplicit false

namespace KeyIntake

namespace Toml

/-- An escape is not shorter than what follows it. -/
lemma length_unescape? {cs rest : List Char} {c : Char} (h : unescape? cs = some (c, rest)) :
    rest.length ≤ cs.length := by
  unfold unescape? at h
  split at h
  all_goals first
    | (cases h; simp)
    | (obtain ⟨d, -, h⟩ := Option.map_eq_some_iff.mp h
       cases h
       simp only [List.length_cons]
       omega)
    | simp at h

/-- A text in double quotes is not longer than what stands between the quotes. -/
lemma length_basicBody? {read : List Char} {bound : Nat} {cs rest : List Char} {s : String}
    (h : basicBody? read bound cs = some (s, rest)) : s.length ≤ read.length + cs.length := by
  fun_induction basicBody? read bound cs with
  | case1 => simp at h
  | case2 => simp at h
  | case3 read bound rest =>
    cases h
    simp
  | case4 read bound rest c rest' hc ih =>
    have hrest := length_unescape? hc
    have hlength := ih h
    simp only [List.length_cons] at hlength ⊢
    omega
  | case5 => simp at h
  | case6 read bound c rest _ _ _ ih =>
    have hlength := ih h
    simp only [List.length_cons] at hlength ⊢
    omega
  | case7 => simp at h

end Toml

namespace Variable

/-! ### Numbers -/

/-- A number in the notation of values: one with a point, a word or a signed word. -/
def IsNumber (cs : List Char) : Prop :=
  (cs.contains '.' = true ∧ (float? cs).isSome = true) ∨ (Word.ofText? cs).isSome = true ∨
    (Word.ofSignedText? cs).isSome = true

/-- A number is no text. -/
lemma bare_ne_text {cs : List Char} (h : IsNumber cs) (s : String) : bare cs ≠ .text s := by
  intro hbare
  unfold bare at hbare
  split at hbare
  case h_1 => simp at hbare
  case h_2 hfloat =>
    split at hbare
    case h_1 => simp at hbare
    case h_2 hword =>
      split at hbare
      case h_1 => simp at hbare
      case h_2 hsigned => simp_all [IsNumber]

/-- Whatever is no number stands for itself. -/
lemma bare_eq_text {cs : List Char} (h : ¬ IsNumber cs) : bare cs = .text (String.ofList cs) := by
  unfold bare
  simp only [IsNumber, not_or, not_and, Option.isSome_iff_ne_none, ne_eq, not_not] at h
  obtain ⟨hfloat, hword, hsigned⟩ := h
  rw [hword, hsigned]
  split
  case h_1 x hx =>
    split at hx
    case isTrue hpoint => simp [hfloat hpoint] at hx
    case isFalse => simp at hx
  case h_2 => rfl

/-- The characters that numbers begin with. -/
def isNumberStart (c : Char) : Bool := c.isDigit || c = '+' || c = '-' || c = '.'

/-- Numerals begin with a digit. -/
lemma numeral?_eq_none {c : Char} (h : c.isDigit = false) (cs : List Char) :
    Text.numeral? (c :: cs) = none := by
  refine Option.eq_none_iff_forall_ne_some.mpr fun n hn => ?_
  have hdigit := (Text.numeral?_eq_some_iff.mp hn).2.1 c List.mem_cons_self
  rw [h] at hdigit
  cases hdigit

/-- **Numbers begin with a digit, a sign or a point.** -/
lemma not_isNumber {c : Char} (h : isNumberStart c = false) (cs : List Char) :
    ¬ IsNumber (c :: cs) := by
  simp only [isNumberStart, Bool.or_eq_false_iff, decide_eq_false_iff_not] at h
  obtain ⟨⟨⟨hdigit, hplus⟩, hminus⟩, hpoint⟩ := h
  have hfloat : float? (c :: cs) = none := by
    have hspan : (c :: cs).span Char.isDigit = ([], c :: cs) := by
      rw [List.span_eq_takeWhile_dropWhile, List.takeWhile_cons, List.dropWhile_cons, hdigit]
      simp
    unfold float?
    split
    next negative rest heq =>
      have hrest : c :: cs = rest := by
        split at heq
        next hc => exact absurd (List.cons.inj hc).1 hminus
        next hc => exact absurd (List.cons.inj hc).1 hplus
        next => exact (Prod.mk.inj heq).2
      subst hrest
      rw [hspan]
      dsimp only
      split
      next hc => exact absurd (List.cons.inj hc).1 hpoint
      next => rfl
  have hword : Word.ofText? (c :: cs) = none := by
    unfold Word.ofText?
    split
    next heq => exact absurd (List.cons.inj heq).1 hplus
    next =>
      dsimp only
      rw [numeral?_eq_none hdigit, Option.filter_none]
  have hsigned : Word.ofSignedText? (c :: cs) = none := by
    unfold Word.ofSignedText?
    split
    next heq => exact absurd (List.cons.inj heq).1 hminus
    next => rw [hword]; rfl
  simp [IsNumber, hfloat, hword, hsigned]

/-! ### The notation -/

/-- What a list is read from is a list. -/
lemma exists_list_of_items? {value? : List Char → Option (Tree × List Char)} {read : List Tree}
    {bound : Nat} {cs rest : List Char} {t : Tree}
    (h : items? value? read bound cs = some (t, rest)) : ∃ items, t = .list items := by
  fun_induction items? value? read bound cs with
  | case1 => simp at h
  | case2 =>
    cases h
    exact ⟨_, rfl⟩
  | case3 read bound cs hcs ih =>
    obtain ⟨⟨u, left⟩, -, h⟩ := Option.bind_eq_some_iff.mp h
    dsimp only at h
    split at h
    · exact ih _ _ h
    · cases h
      exact ⟨_, rfl⟩
    · simp at h

/-- What a table is read from is a table. -/
lemma exists_table_of_fields? {value? : List Char → Option (Tree × List Char)}
    {read : List (String × Tree)} {bound : Nat} {cs rest : List Char} {t : Tree}
    (h : fields? value? read bound cs = some (t, rest)) : ∃ fields, t = .table fields := by
  fun_induction fields? value? read bound cs with
  | case1 => simp at h
  | case2 =>
    cases h
    exact ⟨_, rfl⟩
  | case3 read bound cs hcs ih =>
    obtain ⟨⟨key, left⟩, -, h⟩ := Option.bind_eq_some_iff.mp h
    dsimp only at h
    split at h
    · obtain ⟨⟨u, left'⟩, -, h⟩ := Option.bind_eq_some_iff.mp h
      dsimp only at h
      split at h
      · exact ih _ _ _ h
      · cases h
        exact ⟨_, rfl⟩
      · simp at h
    · simp at h

/-- The values in the notation that do not stand for themselves, with a bound on how deep lists and
tables nest. Only space may follow what the notation knows. -/
inductive IsWritten (depth : Nat) : List Char → Prop where
  | yes : IsWritten depth ['t', 'r', 'u', 'e']
  | no : IsWritten depth ['f', 'a', 'l', 's', 'e']
  | number {cs : List Char} (h : IsNumber cs) (hone : ∀ c ∈ cs, isSeparator c = false) :
      IsWritten depth cs
  | quoted {cs rest : List Char} {s : String}
      (h : Toml.basicBody? [] (cs.length + 1) cs = some (s, rest))
      (hrest : ∀ c ∈ rest, isSpace c = true) : IsWritten depth ('"' :: cs)
  | letter (c : Char) : IsWritten depth ['\'', c, '\'']
  | list {cs rest : List Char} {t : Tree} (h : list? depth cs = some (t, rest))
      (hrest : ∀ c ∈ rest, isSpace c = true) : IsWritten depth ('[' :: cs)
  | table {cs rest : List Char} {t : Tree} (h : table? depth cs = some (t, rest))
      (hrest : ∀ c ∈ rest, isSpace c = true) : IsWritten depth ('\x7b' :: cs)

/-- Space is blank. -/
lemma isBlank_of_isSpace {c : Char} (h : isSpace c = true) : Text.isBlank c = true := by
  simp only [isSpace, Bool.or_eq_true, decide_eq_true_eq] at h
  rcases h with (((rfl | rfl) | rfl) | rfl) | rfl <;> decide

/-- No space stands at the end of a text that does not end with a blank. -/
lemma eq_nil_of_space (front : List Char) {cs rest : List Char}
    (hlast : ∀ c ∈ cs.getLast?, Text.isBlank c = false) (hcs : cs = front ++ rest)
    (hrest : ∀ c ∈ rest, isSpace c = true) : rest = [] := by
  cases hend : rest.getLast? with
  | none => exact List.getLast?_eq_none_iff.mp hend
  | some c =>
    have hspace := isBlank_of_isSpace (hrest c (List.mem_of_getLast? hend))
    rw [hlast c (by rw [hcs, List.getLast?_append, hend]; rfl)] at hspace
    simp at hspace

/-- The notation at the front of a number. -/
lemma front?_of_isNumber {table? list? : List Char → Option (Tree × List Char)} {cs : List Char}
    (h : IsNumber cs) (hone : ∀ c ∈ cs, isSeparator c = false) :
    front? table? list? cs = some (bare (Text.trim cs), []) := by
  have hspan : cs.span (fun c => !isSeparator c) = (cs, []) := by
    rw [List.span_eq_takeWhile_dropWhile, List.takeWhile_eq_self_iff.mpr (by simpa using hone),
      List.dropWhile_eq_nil_iff.mpr (by simpa using hone)]
  have hstart : ∀ c rest, cs = c :: rest → isNumberStart c = true := by
    rintro c rest rfl
    by_contra hc
    exact not_isNumber (by simpa using hc) rest h
  unfold front?
  split
  case h_8 => rw [hspan]
  all_goals exact absurd (hstart _ _ rfl) (by decide)

section Bound

variable {depth : Nat} {cs : List Char} (hfirst : ∀ c ∈ cs.head?, Text.isBlank c = false)
  (hlast : ∀ c ∈ cs.getLast?, Text.isBlank c = false)

include hfirst hlast

/-- What is written in the notation is read as something else than the text itself. -/
lemma exists_front?_of_isWritten (h : IsWritten depth cs) :
    ∃ t rest, front? (table? depth) (list? depth) cs = some (t, rest) ∧
      (∀ c ∈ rest, isSpace c = true) ∧ t ≠ .text (String.ofList cs) := by
  cases h with
  | yes => exact ⟨.bool true, [], rfl, by simp, by simp⟩
  | no => exact ⟨.bool false, [], rfl, by simp, by simp⟩
  | number h hone =>
    refine ⟨bare cs, [], ?_, by simp, bare_ne_text h _⟩
    rw [front?_of_isNumber h hone, Text.trim, Text.trimBy_eq_self hfirst hlast]
  | @quoted cs rest s h hrest =>
    refine ⟨.text s, rest, ?_, hrest, fun heq => ?_⟩
    · show (Toml.basicBody? [] (cs.length + 1) cs).map _ = _
      rw [h]
      rfl
    · -- the quotes are lost
      have hlength := Toml.length_basicBody? h
      rw [Tree.text.inj heq, String.length_ofList, List.length_cons, List.length_nil] at hlength
      omega
  | letter c =>
    refine ⟨.text (String.singleton c), [], rfl, by simp, fun heq => ?_⟩
    have hlength := congrArg String.length (Tree.text.inj heq)
    rw [String.length_ofList] at hlength
    simp at hlength
  | @list cs rest t h hrest =>
    refine ⟨t, rest, h, hrest, ?_⟩
    rintro rfl
    cases depth with
    | zero => simp [list?] at h
    | succ depth =>
      obtain ⟨items, hitems⟩ := exists_list_of_items? h
      simp at hitems
  | @table cs rest t h hrest =>
    refine ⟨t, rest, h, hrest, ?_⟩
    rintro rfl
    cases depth with
    | zero => simp [table?] at h
    | succ depth =>
      obtain ⟨fields, hfields⟩ := exists_table_of_fields? h
      simp at hfields

/-- Only what is written in the notation is read as something else. -/
lemma isWritten_of_front? {t : Tree} {rest : List Char}
    (h : front? (table? depth) (list? depth) cs = some (t, rest))
    (hrest : ∀ c ∈ rest, isSpace c = true) (hne : t ≠ .text (String.ofList cs)) :
    IsWritten depth cs := by
  unfold front? at h
  split at h
  case h_1 =>
    cases h
    rw [eq_nil_of_space ['t', 'r', 'u', 'e'] hlast rfl hrest]
    exact .yes
  case h_2 =>
    cases h
    rw [eq_nil_of_space ['f', 'a', 'l', 's', 'e'] hlast rfl hrest]
    exact .no
  case h_3 => exact .table h hrest
  case h_4 => exact .list h hrest
  case h_5 =>
    obtain ⟨p, hp, h⟩ := Option.map_eq_some_iff.mp h
    cases h
    exact .quoted hp hrest
  case h_6 c _ =>
    cases h
    rw [eq_nil_of_space ['\'', c, '\''] hlast rfl hrest]
    exact .letter c
  case h_7 => simp at h
  case h_8 =>
    rw [List.span_eq_takeWhile_dropWhile] at h
    cases h
    have hall : cs.dropWhile (fun c => !isSeparator c) = [] := by
      cases hdrop : cs.dropWhile fun c => !isSeparator c with
      | nil => rfl
      | cons c left =>
        -- what follows begins with a separator, which is no space
        have hsep := List.head?_dropWhile_not (fun c => !isSeparator c) cs
        have hspace := hrest c (by rw [hdrop]; exact List.mem_cons_self)
        rw [hdrop] at hsep
        simp only [isSpace, Bool.or_eq_true, decide_eq_true_eq] at hspace
        rcases hspace with (((rfl | rfl) | rfl) | rfl) | rfl <;> simp [isSeparator] at hsep
    have hone : ∀ c ∈ cs, isSeparator c = false := by
      simpa using List.dropWhile_eq_nil_iff.mp hall
    rw [List.takeWhile_eq_self_iff.mpr (by simpa using hone), Text.trim,
      Text.trimBy_eq_self hfirst hlast] at hne
    refine .number ?_ hone
    by_contra hnumber
    exact hne (bare_eq_text hnumber)

end Bound

/-- **Which values stand for themselves**: of those without blanks at their ends, all that are not
written in the notation. -/
theorem value_eq_text_iff {s : String} (hfirst : ∀ c ∈ s.toList.head?, Text.isBlank c = false)
    (hlast : ∀ c ∈ s.toList.getLast?, Text.isBlank c = false) :
    value s = .text s ↔ ¬ IsWritten s.toList.length s.toList := by
  have hfront : s.toList.dropWhile isSpace = s.toList := by
    cases hs : s.toList with
    | nil => rfl
    | cons c rest =>
      refine List.dropWhile_cons_of_neg fun hspace => ?_
      have hblank := isBlank_of_isSpace hspace
      rw [hfirst c (by rw [hs]; rfl)] at hblank
      simp at hblank
  have hvalue := value?_eq s.toList.length s.toList
  rw [hfront] at hvalue
  constructor
  · intro htext hwritten
    obtain ⟨t, rest, hread, hrest, hne⟩ := exists_front?_of_isWritten hfirst hlast hwritten
    rw [hread, Option.map_some, List.dropWhile_eq_nil_iff.mpr hrest] at hvalue
    rw [value, hvalue] at htext
    rw [String.ofList_toList] at hne
    exact hne htext
  · intro hplain
    unfold value
    split
    case h_1 t ht =>
      by_contra hne
      rw [hvalue] at ht
      obtain ⟨⟨u, rest⟩, hread, hu⟩ := Option.map_eq_some_iff.mp ht
      obtain ⟨rfl, hrest⟩ := Prod.mk.inj hu
      refine hplain (isWritten_of_front? hfirst hlast hread ?_ (by simpa using hne))
      exact List.dropWhile_eq_nil_iff.mp hrest
    case h_2 => rfl

end Variable

end KeyIntake
