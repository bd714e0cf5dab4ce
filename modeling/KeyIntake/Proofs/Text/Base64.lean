import KeyIntake.Text.Base64
import Mathlib.Tactic.Common
/-!
# Base64 denotes every byte string once

Writing bytes in Base64 and reading a text of Base64 are inverse to each other: every byte string
has one text, and a text is read only if it is the text of a byte string.

## Main results

* `Base64.decode?_eq_some_iff` — a text is read as the bytes whose text it is.
* `Base64.encode_inj` — different byte strings have different texts.
-/

set_option relaxedAutoImplicit false
set_option autoImplicit false

namespace KeyIntake.Base64

/-! ### Letters -/

/-- The letter of a six-bit value has this value. -/
lemma value?_letter : ∀ n < 64, value? (letter n) = some n := by decide +kernel

/-- Padding is no letter. -/
lemma letter_ne_pad : ∀ n < 64, letter n ≠ '=' := by decide +kernel

/-- A character has a value iff it is the letter of this six-bit value. -/
lemma value?_eq_some_iff {c : Char} {n : Nat} : value? c = some n ↔ n < 64 ∧ letter n = c := by
  constructor
  · intro h
    obtain ⟨hn, hc, -⟩ := List.findIdx?_eq_some_iff_getElem.mp h
    refine ⟨hn, ?_⟩
    rw [letter, List.getD_eq_getElem?_getD, List.getElem?_eq_getElem hn, Option.getD_some]
    exact eq_of_beq hc
  · rintro ⟨hn, rfl⟩
    exact value?_letter n hn

/-! ### Groups -/

/-- A number that is the value of a byte stands for this byte. -/
lemma ofNat_eq {a : UInt8} {n : Nat} (h : n = a.toNat) : UInt8.ofNat n = a := by
  rw [h, UInt8.ofNat_toNat]

/-- A byte has the value of the number that it stands for, if there is a byte of this value. -/
lemma toNat_ofNat {n : Nat} (h : n < 256) : (UInt8.ofNat n).toNat = n :=
  UInt8.toNat_ofNat_of_lt h

/-- What bytes are written as is read as these bytes.

**Proof sketch.** Induction on the groups. A group of three bytes is four letters, the last of
which is no padding, so they are read by the rule for a full group; the six-bit values are put
together to the bytes that they were taken from. -/
theorem decodeGroups?_encodeGroups (bytes : List UInt8) :
    decodeGroups? (encodeGroups bytes) = some bytes := by
  induction bytes using encodeGroups.induct with
  | case1 => rfl
  | case2 a =>
    have ha := a.toNat_lt
    rw [encodeGroups, decodeGroups?, value?_letter _ (by omega), value?_letter _ (by omega)]
    have hrest : a.toNat % 4 * 16 % 16 = 0 := by omega
    simp only [Option.bind_eq_bind, Option.bind_some, if_pos hrest]
    rw [ofNat_eq (a := a) (by omega)]
  | case3 a b =>
    have ha := a.toNat_lt
    have hb := b.toNat_lt
    rw [encodeGroups, decodeGroups?.eq_3 _ _ _ (letter_ne_pad _ (by omega)),
      value?_letter _ (by omega), value?_letter _ (by omega), value?_letter _ (by omega)]
    have hrest : b.toNat % 16 * 4 % 4 = 0 := by omega
    simp only [Option.bind_eq_bind, Option.bind_some, if_pos hrest]
    rw [ofNat_eq (a := a) (by omega), ofNat_eq (a := b) (by omega)]
  | case4 a b c rest ih =>
    have ha := a.toNat_lt
    have hb := b.toNat_lt
    have hc := c.toNat_lt
    have hlast : letter (c.toNat % 64) ≠ '=' := letter_ne_pad _ (by omega)
    rw [encodeGroups, decodeGroups?.eq_4 _ _ _ _ _ (fun _ h _ => hlast h) (fun h _ => hlast h),
      value?_letter _ (by omega), value?_letter _ (by omega), value?_letter _ (by omega),
      value?_letter _ (by omega), ih]
    simp only [Option.bind_eq_bind, Option.bind_some]
    rw [ofNat_eq (a := a) (by omega), ofNat_eq (a := b) (by omega), ofNat_eq (a := c) (by omega)]

/-- What is read as bytes is what these bytes are written as.

**Proof sketch.** Induction along the reader. Each character is the letter of its value, and the
bits that padding leaves over are zero, so the bytes give the same values again. -/
theorem encodeGroups_of_decodeGroups? {cs : List Char} {bytes : List UInt8}
    (h : decodeGroups? cs = some bytes) : encodeGroups bytes = cs := by
  induction cs using decodeGroups?.induct generalizing bytes with
  | case1 =>
    obtain rfl := Option.some.inj h
    rfl
  | case2 p q =>
    simp only [decodeGroups?, Option.bind_eq_bind, Option.bind_eq_some_iff,
      value?_eq_some_iff] at h
    obtain ⟨a, ⟨ha, rfl⟩, b, ⟨hb, rfl⟩, h⟩ := h
    split at h
    case isFalse => cases h
    case isTrue hrest =>
      obtain rfl := Option.some.inj h
      have hx : (UInt8.ofNat (a * 4 + b / 16)).toNat = a * 4 + b / 16 := toNat_ofNat (by omega)
      have hp : (a * 4 + b / 16) / 4 = a := by omega
      have hq : (a * 4 + b / 16) % 4 * 16 = b := by omega
      rw [encodeGroups, hx, hp, hq]
  | case3 p q r hr =>
    simp only [decodeGroups?.eq_3 p q r hr, Option.bind_eq_bind, Option.bind_eq_some_iff,
      value?_eq_some_iff] at h
    obtain ⟨a, ⟨ha, rfl⟩, b, ⟨hb, rfl⟩, c, ⟨hc, rfl⟩, h⟩ := h
    split at h
    case isFalse => cases h
    case isTrue hrest =>
      obtain rfl := Option.some.inj h
      have hx : (UInt8.ofNat (a * 4 + b / 16)).toNat = a * 4 + b / 16 := toNat_ofNat (by omega)
      have hy : (UInt8.ofNat (b % 16 * 16 + c / 4)).toNat = b % 16 * 16 + c / 4 :=
        toNat_ofNat (by omega)
      have hp : (a * 4 + b / 16) / 4 = a := by omega
      have hq : (a * 4 + b / 16) % 4 * 16 + (b % 16 * 16 + c / 4) / 16 = b := by omega
      have hr : (b % 16 * 16 + c / 4) % 16 * 4 = c := by omega
      rw [encodeGroups, hx, hy, hp, hq, hr]
  | case4 p q r s rest hr hs ih =>
    simp only [decodeGroups?.eq_4 p q r s rest hr hs, Option.bind_eq_bind,
      Option.bind_eq_some_iff, value?_eq_some_iff] at h
    obtain ⟨a, ⟨ha, rfl⟩, b, ⟨hb, rfl⟩, c, ⟨hc, rfl⟩, d, ⟨hd, rfl⟩, tail, htail, h⟩ := h
    obtain rfl := Option.some.inj h
    have hx : (UInt8.ofNat (a * 4 + b / 16)).toNat = a * 4 + b / 16 := toNat_ofNat (by omega)
    have hy : (UInt8.ofNat (b % 16 * 16 + c / 4)).toNat = b % 16 * 16 + c / 4 :=
      toNat_ofNat (by omega)
    have hz : (UInt8.ofNat (c % 4 * 64 + d)).toNat = c % 4 * 64 + d := toNat_ofNat (by omega)
    have hp : (a * 4 + b / 16) / 4 = a := by omega
    have hq : (a * 4 + b / 16) % 4 * 16 + (b % 16 * 16 + c / 4) / 16 = b := by omega
    have hr : (b % 16 * 16 + c / 4) % 16 * 4 + (c % 4 * 64 + d) / 64 = c := by omega
    have hs : (c % 4 * 64 + d) % 64 = d := by omega
    rw [encodeGroups, hx, hy, hz, hp, hq, hr, hs, ih htail]
  | case5 cs h₁ h₂ h₃ h₄ =>
    rw [decodeGroups?.eq_5 cs h₁ h₂ h₃ h₄] at h
    cases h

/-! ### Texts -/

/-- **A text is read as the bytes whose text it is**, and read only if there are such bytes. -/
theorem decode?_eq_some_iff {text : String} {bytes : List UInt8} :
    decode? text = some bytes ↔ encode bytes = text := by
  constructor
  · intro h
    rw [encode, encodeGroups_of_decodeGroups? h, String.ofList_toList]
  · rintro rfl
    rw [decode?, encode, String.toList_ofList, decodeGroups?_encodeGroups]

/-- The text of bytes is read as these bytes. -/
@[simp]
theorem decode?_encode (bytes : List UInt8) : decode? (encode bytes) = some bytes :=
  decode?_eq_some_iff.mpr rfl

/-- **Different byte strings have different texts.** -/
@[simp]
theorem encode_inj {a b : List UInt8} : encode a = encode b ↔ a = b := by
  constructor
  · intro h
    have hread := congrArg decode? h
    rwa [decode?_encode, decode?_encode, Option.some.injEq] at hread
  · rintro rfl
    rfl

end KeyIntake.Base64
