import KeyIntake.Proofs.Text.Basic
import KeyIntake.Text.Hex
import Mathlib.Data.List.Induction
/-!
# Digits that denote byte strings

A row of hexadecimal digits denotes a byte string, two digits for each byte. The reader of bytes
accepts what denotes something, and otherwise says what is wrong with it. Writing is one way to
denote a byte string; the others differ from it in the case of letters.

## Main definitions

* `Hex.alphabet`, `Hex.lowerAlphabet` — the characters that byte strings are denoted with.
* `Hex.Denotes` — the byte string that a row of digits denotes.
* `Hex.utf8` — the bytes of a text.

## Main results

* `Hex.exists_denotes_iff` — which rows of characters denote something.
* `Hex.denotes_iff` — in which ways a byte string is denoted.
* `Hex.decode_utf8_eq_ok_iff` — the reader accepts what denotes something.
* `Hex.decode_eq_badByte` — the reader complains about the first byte that is no digit.
-/

set_option relaxedAutoImplicit false
set_option autoImplicit false

namespace KeyIntake

namespace Text

/-! ### Digits -/

/-- Digits are ASCII characters, and a digit in lower case is the one that its value has. -/
lemma hexValue?_cases {c : Char} {d : Nat} (h : hexValue? c = some d) :
    c.toNat < 128 ∧ d < 16 ∧ c.toLower = Nat.digitChar d := by
  have htable : ∀ n < 128, ∀ d ∈ hexValue? (Char.ofNat n),
      d < 16 ∧ (Char.ofNat n).toLower = Nat.digitChar d := by decide +kernel
  have hascii : c.toNat < 128 := by
    unfold hexValue? at h
    have hnine : '9'.toNat = 57 := rfl
    have hf : 'f'.toNat = 102 := rfl
    have hF : 'F'.toNat = 70 := rfl
    split_ifs at h with h₁ h₂ h₃
    · have hle : c.toNat ≤ '9'.toNat := h₁.2
      omega
    · have hle : c.toNat ≤ 'f'.toNat := h₂.2
      omega
    · have hle : c.toNat ≤ 'F'.toNat := h₃.2
      omega
  have hc := htable c.toNat hascii d
  rw [Char.ofNat_toNat] at hc
  exact ⟨hascii, hc h⟩

/-- The digit of a value has that value in either case. -/
lemma hexValue?_of_toLower {c : Char} {d : Nat} (hd : d < 16) (h : c.toLower = Nat.digitChar d) :
    hexValue? c = some d := by
  have htable : ∀ n < 128, ∀ d < 16, (Char.ofNat n).toLower = Nat.digitChar d →
      hexValue? (Char.ofNat n) = some d := by decide +kernel
  have hsmall : ∀ d < 16, (Nat.digitChar d).toNat < 128 := by decide
  by_cases hascii : c.toNat < 128
  · have hc := htable c.toNat hascii d hd
    rw [Char.ofNat_toNat] at hc
    exact hc h
  · rw [toLower_of_le (by omega)] at h
    rw [h] at hascii
    exact absurd (hsmall d hd) hascii

/-- A character outside ASCII is no digit. -/
lemma hexValue?_of_le {c : Char} (h : 128 ≤ c.toNat) : hexValue? c = none := by
  cases hc : hexValue? c with
  | none => rfl
  | some d => exact absurd (hexValue?_cases hc).1 (by omega)

end Text

namespace Hex

/-- The digits of either case. -/
def alphabet : List Char := "0123456789abcdefABCDEF".toList

/-- The digits in lower case. -/
def lowerAlphabet : List Char := "0123456789abcdef".toList

/-- The digits are the characters that have a value. -/
lemma mem_alphabet_iff {c : Char} : c ∈ alphabet ↔ (Text.hexValue? c).isSome = true := by
  have htable : ∀ n < 128, (Text.hexValue? (Char.ofNat n)).isSome = true →
      Char.ofNat n ∈ alphabet := by decide +kernel
  have hvalues : alphabet.all (fun c => (Text.hexValue? c).isSome) = true := by decide +kernel
  refine ⟨List.all_eq_true.mp hvalues c, fun h => ?_⟩
  obtain ⟨d, hd⟩ := Option.isSome_iff_exists.mp h
  have hc := htable c.toNat (Text.hexValue?_cases hd).1
  rw [Char.ofNat_toNat] at hc
  exact hc h

/-- A row of digits denotes a byte string, two digits for each byte. -/
inductive Denotes : List Char → List UInt8 → Prop
  | nil : Denotes [] []
  | cons {high low : Char} {h l : Nat} {digits : List Char} {bytes : List UInt8} :
      Text.hexValue? high = some h → Text.hexValue? low = some l → Denotes digits bytes →
      Denotes (high :: low :: digits) (UInt8.ofNat (16 * h + l) :: bytes)

namespace Denotes

variable {digits : List Char} {bytes : List UInt8}

/-- There are two digits for each byte. -/
lemma length_eq (h : Denotes digits bytes) : digits.length = 2 * bytes.length := by
  induction h with
  | nil => rfl
  | cons _ _ _ ih =>
    simp only [List.length_cons, ih]
    omega

/-- There are digits iff there are bytes. -/
lemma eq_nil_iff (h : Denotes digits bytes) : digits = [] ↔ bytes = [] := by
  have hlength := h.length_eq
  rw [← List.length_eq_zero_iff, ← List.length_eq_zero_iff]
  omega

/-- There is nothing but digits. -/
lemma isSome_hexValue? (h : Denotes digits bytes) :
    ∀ c ∈ digits, (Text.hexValue? c).isSome = true := by
  induction h with
  | nil => exact fun c hc => absurd hc List.not_mem_nil
  | cons hhigh hlow _ ih =>
    intro c hc
    rcases List.mem_cons.mp hc with rfl | hc
    · rw [hhigh]
      rfl
    · rcases List.mem_cons.mp hc with rfl | hc
      · rw [hlow]
        rfl
      · exact ih c hc

end Denotes

/-- **Which rows of characters denote something**: those of digits in pairs. -/
theorem exists_denotes_iff (digits : List Char) :
    (∃ bytes, Denotes digits bytes) ↔
      digits.length % 2 = 0 ∧ ∀ c ∈ digits, (Text.hexValue? c).isSome = true := by
  constructor
  · rintro ⟨bytes, h⟩
    refine ⟨?_, h.isSome_hexValue?⟩
    rw [h.length_eq]
    omega
  · induction digits using List.twoStepInduction with
    | nil => exact fun _ => ⟨[], .nil⟩
    | singleton c => exact fun h => absurd h.1 Nat.one_ne_zero
    | cons_cons high low digits ih _ =>
      rintro ⟨heven, hdigits⟩
      obtain ⟨h, hhigh⟩ := Option.isSome_iff_exists.mp (hdigits high List.mem_cons_self)
      obtain ⟨l, hlow⟩ := Option.isSome_iff_exists.mp
        (hdigits low (List.mem_cons_of_mem _ List.mem_cons_self))
      obtain ⟨bytes, hbytes⟩ := ih ⟨by simp only [List.length_cons] at heven; omega, fun c hc =>
        hdigits c (List.mem_cons_of_mem _ (List.mem_cons_of_mem _ hc))⟩
      exact ⟨_, .cons hhigh hlow hbytes⟩

/-- **In which ways a byte string is denoted**: those that differ in case from how it is written. -/
theorem denotes_iff (digits : List Char) (bytes : List UInt8) :
    Denotes digits bytes ↔ digits.map Char.toLower = (encode bytes).toList := by
  rw [encode, String.toList_ofList]
  constructor
  · intro h
    induction h with
    | nil => rfl
    | @cons high low h l digits bytes hhigh hlow _ ih =>
      obtain ⟨-, hh, hhigh⟩ := Text.hexValue?_cases hhigh
      obtain ⟨-, hl, hlow⟩ := Text.hexValue?_cases hlow
      have hbyte : (UInt8.ofNat (16 * h + l)).toNat = 16 * h + l := by
        rw [UInt8.toNat_ofNat']
        omega
      have hdiv : (16 * h + l) / 16 = h := by omega
      have hmod : (16 * h + l) % 16 = l := by omega
      rw [List.map_cons, List.map_cons, ih, hhigh, hlow, List.flatMap_cons, pair, hbyte, hdiv, hmod]
      rfl
  · intro h
    induction bytes generalizing digits with
    | nil =>
      rw [List.map_eq_nil_iff.mp h]
      exact .nil
    | cons b bytes ih =>
      rw [List.flatMap_cons, pair] at h
      obtain ⟨high, digits, rfl, hhigh, h⟩ := List.map_eq_cons_iff.mp h
      obtain ⟨low, digits, rfl, hlow, h⟩ := List.map_eq_cons_iff.mp h
      have hb := b.toNat_lt
      have hbyte : UInt8.ofNat (16 * (b.toNat / 16) + b.toNat % 16) = b := by
        rw [Nat.div_add_mod, UInt8.ofNat_toNat]
      rw [← hbyte]
      exact .cons (Text.hexValue?_of_toLower (by omega) hhigh)
        (Text.hexValue?_of_toLower (by omega) hlow) (ih digits h)

/-- Bytes are written with digits in lower case. -/
lemma mem_lowerAlphabet_of_mem_encode {bytes : List UInt8} {c : Char}
    (h : c ∈ (encode bytes).toList) : c ∈ lowerAlphabet := by
  have htable : ∀ d < 16, Nat.digitChar d ∈ lowerAlphabet := by decide +kernel
  rw [encode, String.toList_ofList] at h
  obtain ⟨b, -, hc⟩ := List.mem_flatMap.mp h
  have hb := b.toNat_lt
  rcases List.mem_cons.mp hc with rfl | hc
  · exact htable _ (by omega)
  · rw [List.mem_singleton.mp hc]
    exact htable _ (by omega)

/-- Writing bytes denotes them. -/
lemma denotes_encode (bytes : List UInt8) : Denotes (encode bytes).toList bytes := by
  have hlower : lowerAlphabet.all (fun c => c.toLower == c) = true := by decide +kernel
  refine (denotes_iff _ bytes).mpr ?_
  conv_rhs => rw [← List.map_id' (encode bytes).toList]
  exact List.map_congr_left fun c hc =>
    eq_of_beq (List.all_eq_true.mp hlower c (mem_lowerAlphabet_of_mem_encode hc))

/-- Writing takes two digits for each byte. -/
lemma length_encode (bytes : List UInt8) : (encode bytes).length = 2 * bytes.length := by
  rw [← String.length_toList]
  exact (denotes_encode bytes).length_eq

/-! ### Bytes of a text -/

/-- The bytes of a text. -/
def utf8 (cs : List Char) : List UInt8 := cs.flatMap String.utf8EncodeChar

/-- The bytes of a text are as many as the text has. -/
lemma length_utf8 (cs : List Char) : (utf8 cs).length = (String.ofList cs).utf8ByteSize :=
  List.size_toByteArray.symm

/-- An ASCII character is one byte. -/
lemma utf8EncodeChar_of_lt {c : Char} (h : c.toNat < 128) :
    String.utf8EncodeChar c = [UInt8.ofNat c.toNat] :=
  if_pos (Nat.le_of_lt_succ h)

/-- The byte of an ASCII character has the value of the character. -/
lemma byteValue?_of_lt {c : Char} (h : c.toNat < 128) :
    byteValue? (UInt8.ofNat c.toNat) = Text.hexValue? c := by
  have hbyte : (UInt8.ofNat c.toNat).toNat = c.toNat := by
    rw [UInt8.toNat_ofNat']
    omega
  rw [byteValue?, hbyte, Char.ofNat_toNat]

/-- A digit is one byte, which has the value of the digit. -/
lemma utf8EncodeChar_of_hexValue? {c : Char} {d : Nat} (h : Text.hexValue? c = some d) :
    ∃ b, String.utf8EncodeChar c = [b] ∧ byteValue? b = some d := by
  have hascii := (Text.hexValue?_cases h).1
  exact ⟨_, utf8EncodeChar_of_lt hascii, (byteValue?_of_lt hascii).trans h⟩

/-- The bytes of a character outside ASCII are no digits. -/
lemma byteValue?_of_le {c : Char} (h : 128 ≤ c.toNat) :
    ∀ b ∈ String.utf8EncodeChar c, byteValue? b = none := by
  have hlarge : ∀ b ∈ String.utf8EncodeChar c, 128 ≤ b.toNat := by
    have hval : c.val.toNat = c.toNat := rfl
    unfold String.utf8EncodeChar
    dsimp only
    rw [hval, if_neg (by omega)]
    split_ifs <;> simp only [List.forall_mem_cons, List.not_mem_nil, false_implies, implies_true,
      and_true, UInt8.toNat_ofNat'] <;> omega
  intro b hb
  have hchar : (Char.ofNat b.toNat).toNat = b.toNat := by
    have hlt := b.toNat_lt
    have hvalid : b.toNat.isValidChar := .inl (by omega)
    rw [Char.ofNat, dif_pos hvalid]
    rfl
  exact Text.hexValue?_of_le (by rw [hchar]; exact hlarge b hb)

/-- The bytes of a text are digits iff its characters are. -/
lemma forall_utf8_iff (cs : List Char) :
    (∀ b ∈ utf8 cs, (byteValue? b).isSome = true) ↔
      ∀ c ∈ cs, (Text.hexValue? c).isSome = true := by
  simp only [utf8, List.forall_mem_flatMap]
  refine forall₂_congr fun c _ => ⟨fun h => ?_, fun h => ?_⟩
  · by_cases hascii : c.toNat < 128
    · rw [← byteValue?_of_lt hascii]
      exact h _ (by rw [utf8EncodeChar_of_lt hascii]; exact List.mem_singleton_self _)
    · -- there is a byte, and it is no digit
      obtain ⟨b, hb⟩ : ∃ b, b ∈ String.utf8EncodeChar c := by
        refine List.exists_mem_of_length_pos ?_
        rw [String.length_utf8EncodeChar]
        exact Char.utf8Size_pos c
      have hsome := h b hb
      rw [byteValue?_of_le (by omega) b hb] at hsome
      exact absurd hsome Bool.false_ne_true
  · obtain ⟨d, hd⟩ := Option.isSome_iff_exists.mp h
    obtain ⟨b, hencode, hvalue⟩ := utf8EncodeChar_of_hexValue? hd
    intro b' hb'
    rw [hencode, List.mem_singleton] at hb'
    rw [hb', hvalue]
    rfl

/-- A row of digits has a byte for each. -/
lemma length_utf8_of_digits {cs : List Char} (h : ∀ c ∈ cs, (Text.hexValue? c).isSome = true) :
    (utf8 cs).length = cs.length := by
  induction cs with
  | nil => rfl
  | cons c cs ih =>
    obtain ⟨d, hd⟩ := Option.isSome_iff_exists.mp (h c List.mem_cons_self)
    obtain ⟨b, hencode, -⟩ := utf8EncodeChar_of_hexValue? hd
    have hcs := ih fun x hx => h x (List.mem_cons_of_mem c hx)
    rw [utf8] at hcs ⊢
    rw [List.flatMap_cons, hencode, List.singleton_append, List.length_cons, List.length_cons, hcs]

/-! ### The reader -/

/-- What denotes a byte string is read as that. -/
lemma decodePairs_of_denotes {digits : List Char} {bytes : List UInt8} (h : Denotes digits bytes)
    (position : Nat) : decodePairs position (utf8 digits) = .ok bytes := by
  induction h generalizing position with
  | nil => rfl
  | @cons high low h l digits bytes hhigh hlow _ ih =>
    obtain ⟨b, hb, hbyte⟩ := utf8EncodeChar_of_hexValue? hhigh
    obtain ⟨b', hb', hbyte'⟩ := utf8EncodeChar_of_hexValue? hlow
    have hbytes : utf8 (high :: low :: digits) = b :: b' :: utf8 digits := by
      rw [utf8, List.flatMap_cons, List.flatMap_cons, hb, hb']
      rfl
    rw [hbytes, decodePairs, hbyte, hbyte']
    dsimp only
    rw [ih]
    rfl

/-- **The reader complains about the first byte that is no digit.**

**Proof sketch.** Induction on the digits before it, in pairs. -/
lemma decodePairs_eq_badByte {before after : List UInt8} {byte : UInt8}
    (hbefore : ∀ b ∈ before, (byteValue? b).isSome = true) (hbyte : byteValue? byte = none)
    (heven : (before ++ byte :: after).length % 2 = 0) (position : Nat) :
    decodePairs position (before ++ byte :: after) =
      .error (.badByte byte (position + before.length)) := by
  induction before using List.twoStepInduction generalizing position with
  | nil =>
    cases after with
    | nil => exact absurd heven Nat.one_ne_zero
    | cons low after =>
      rw [List.nil_append, decodePairs, hbyte]
      rfl
  | singleton high =>
    obtain ⟨h, hhigh⟩ := Option.isSome_iff_exists.mp (hbefore high List.mem_cons_self)
    rw [List.singleton_append, decodePairs, hhigh, hbyte, List.length_singleton]
  | cons_cons high low before ih _ =>
    obtain ⟨h, hhigh⟩ := Option.isSome_iff_exists.mp (hbefore high List.mem_cons_self)
    obtain ⟨l, hlow⟩ := Option.isSome_iff_exists.mp
      (hbefore low (List.mem_cons_of_mem _ List.mem_cons_self))
    have hrest := ih (fun b hb => hbefore b (List.mem_cons_of_mem _ (List.mem_cons_of_mem _ hb)))
      (by simp only [List.cons_append, List.length_cons] at heven; omega) (position + 2)
    rw [List.cons_append, List.cons_append, decodePairs, hhigh, hlow]
    dsimp only
    rw [hrest, List.length_cons, List.length_cons, Nat.add_right_comm position 2, Nat.add_assoc]
    rfl

/-- Where not all bytes are digits there is a first one that is none. -/
lemma exists_first_bad {bytes : List UInt8}
    (h : ¬ ∀ b ∈ bytes, (byteValue? b).isSome = true) :
    ∃ before byte after, bytes = before ++ byte :: after ∧
      (∀ b ∈ before, (byteValue? b).isSome = true) ∧ byteValue? byte = none := by
  induction bytes with
  | nil => exact absurd (fun b hb => absurd hb List.not_mem_nil) h
  | cons b bytes ih =>
    cases hb : byteValue? b with
    | none => exact ⟨[], b, bytes, rfl, fun b hb => absurd hb List.not_mem_nil, hb⟩
    | some d =>
      have hsome : (byteValue? b).isSome = true := by
        rw [hb]
        rfl
      obtain ⟨before, byte, after, rfl, hbefore, hbyte⟩ := ih fun hall =>
        h (List.forall_mem_cons.mpr ⟨hsome, hall⟩)
      exact ⟨b :: before, byte, after, rfl, List.forall_mem_cons.mpr ⟨hsome, hbefore⟩, hbyte⟩

/-- **The reader accepts what denotes a byte string**, and reads that. -/
theorem decode_utf8_eq_ok_iff (digits : List Char) (bytes : List UInt8) :
    decode (utf8 digits) = .ok bytes ↔ Denotes digits bytes := by
  have hread : ∀ {bytes}, Denotes digits bytes → decode (utf8 digits) = .ok bytes := by
    intro bytes h
    have hlength := length_utf8_of_digits h.isSome_hexValue?
    rw [h.length_eq] at hlength
    rw [decode, if_neg (by omega), decodePairs_of_denotes h]
  refine ⟨fun h => ?_, hread⟩
  have heven : ¬ (utf8 digits).length % 2 = 1 := by
    intro hodd
    rw [decode, if_pos hodd] at h
    cases h
  have hdigits : ∀ b ∈ utf8 digits, (byteValue? b).isSome = true := by
    by_contra hbad
    obtain ⟨before, byte, after, hbytes, hbefore, hbyte⟩ := exists_first_bad hbad
    rw [decode, if_neg heven, hbytes,
      decodePairs_eq_badByte hbefore hbyte (by rw [← hbytes]; omega)] at h
    cases h
  rw [forall_utf8_iff] at hdigits
  rw [length_utf8_of_digits hdigits] at heven
  obtain ⟨bytes', hbytes'⟩ := (exists_denotes_iff digits).mpr ⟨by omega, hdigits⟩
  rw [hread hbytes'] at h
  rwa [← Except.ok.inj h]

/-- An odd number of bytes is complained about first. -/
lemma decode_eq_oddLength {bytes : List UInt8} (h : bytes.length % 2 = 1) :
    decode bytes = .error .oddLength := if_pos h

/-- Otherwise the complaint is about the first byte that is no digit. -/
lemma decode_eq_badByte {before after : List UInt8} {byte : UInt8}
    (hbefore : ∀ b ∈ before, (byteValue? b).isSome = true) (hbyte : byteValue? byte = none)
    (heven : (before ++ byte :: after).length % 2 = 0) :
    decode (before ++ byte :: after) = .error (.badByte byte before.length) := by
  rw [decode, if_neg (by omega), decodePairs_eq_badByte hbefore hbyte heven, Nat.zero_add]

end Hex

end KeyIntake
