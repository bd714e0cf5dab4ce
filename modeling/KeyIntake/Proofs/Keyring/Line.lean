import KeyIntake.Proofs.Keyring.PrivateKey
import KeyIntake.Proofs.Text.Hex
/-!
# Keys on lines

The grammar of a line with a key: one marker at most, and then digits in pairs, of which there are
some. Reading such a line undoes writing bytes, whatever the marker and the case of the digits are;
every other line is refused with a fault that says what is wrong with what follows the marker.

## Main definitions

* `PrivateKey.markers`, `PrivateKey.Follows` — what may stand in front of the digits, and what
  follows it.
* `PrivateKey.Refusal` — what is wrong with a line.
* `PrivateKey.ReadsLines` — the grammar of lines, what they hold and how the others are refused.

## Main results

* `PrivateKey.bytes?_eq_some_iff` — which byte string a line denotes.
* `PrivateKey.parse_eq_error_iff` — with which fault a line is refused.
* `PrivateKey.readsLines` — lines are read by their grammar.
-/

set_option relaxedAutoImplicit false
set_option autoImplicit false

namespace KeyIntake

namespace PrivateKey

variable {source line : String} {rest : List Char} {bytes : List UInt8} {fault : Fault}

/-! ### The marker -/

/-- The markers of hexadecimal digits. -/
def markers : List (List Char) := [['0', 'x'], ['0', 'X']]

/-- What follows the marker of a line, of which no more than one is taken. -/
inductive Follows : List Char → List Char → Prop
  | marked {marker rest : List Char} : marker ∈ markers → Follows (marker ++ rest) rest
  | bare {line : List Char} : (∀ marker ∈ markers, ¬ marker <+: line) → Follows line line

/-- The marker that is dropped is what the rest follows. -/
lemma follows_iff {line : List Char} : Follows line rest ↔ dropMarker line = rest := by
  constructor
  · rintro (hmarker | hbare)
    · rcases List.mem_pair.mp hmarker with rfl | rfl <;> rfl
    · unfold dropMarker
      split
      · exact absurd (List.prefix_append ['0', 'x'] _) (hbare _ List.mem_cons_self)
      · exact absurd (List.prefix_append ['0', 'X'] _) (hbare _ (.tail _ List.mem_cons_self))
      · rfl
  · rintro rfl
    unfold dropMarker
    split
    case h_1 rest => exact @Follows.marked ['0', 'x'] rest List.mem_cons_self
    case h_2 rest => exact @Follows.marked ['0', 'X'] rest (.tail _ List.mem_cons_self)
    case h_3 hx hX =>
      refine .bare fun marker hmarker hfront => ?_
      obtain ⟨rest, rfl⟩ := hfront
      rcases List.mem_pair.mp hmarker with rfl | rfl
      · exact hx rest rfl
      · exact hX rest rfl

/-- A row of digits follows any marker, and also none. -/
lemma follows_of_denotes {marker digits : List Char} (hmarker : marker ∈ [] :: markers)
    (h : Hex.Denotes digits bytes) : Follows (marker ++ digits) digits := by
  rcases List.mem_cons.mp hmarker with rfl | hmarker
  · refine .bare fun marker hmarker hfront => ?_
    -- a marker has a letter that is no digit
    have hletter : ∃ c ∈ marker, Text.hexValue? c = none := by
      rcases List.mem_pair.mp hmarker with rfl | rfl
      · exact ⟨'x', by decide, by decide⟩
      · exact ⟨'X', by decide, by decide⟩
    obtain ⟨c, hc, hnone⟩ := hletter
    have hsome := h.isSome_hexValue? c (hfront.subset hc)
    rw [hnone] at hsome
    exact absurd hsome Bool.false_ne_true
  · exact .marked hmarker

/-! ### What a line denotes -/

/-- **Which byte string a line denotes**: that of its digits, which stand behind one marker at most.
The empty one is not denoted. -/
theorem bytes?_eq_some_iff :
    bytes? line = some bytes ↔ bytes ≠ [] ∧ ∃ marker ∈ [] :: markers, ∃ digits,
      line.toList = marker ++ digits ∧ Hex.Denotes digits bytes := by
  have hdecode : bytes? line = some bytes ↔
      dropMarker line.toList ≠ [] ∧ Hex.Denotes (dropMarker line.toList) bytes := by
    rw [← Hex.decode_utf8_eq_ok_iff, bytes?, Hex.utf8]
    split
    case isTrue hempty => simp [List.isEmpty_iff.mp hempty]
    case isFalse hempty =>
      rw [List.isEmpty_iff] at hempty
      cases Hex.decode ((dropMarker line.toList).flatMap String.utf8EncodeChar) <;>
        simp [Except.toOption, hempty]
  rw [hdecode]
  constructor
  · rintro ⟨hne, h⟩
    refine ⟨fun hbytes => hne (h.eq_nil_iff.mpr hbytes), ?_⟩
    generalize hrest : dropMarker line.toList = rest at h
    generalize line.toList = cs at hrest
    rcases follows_iff.mpr hrest with hmarker | -
    · exact ⟨_, .tail _ hmarker, rest, rfl, h⟩
    · exact ⟨[], List.mem_cons_self, rest, rfl, h⟩
  · rintro ⟨hbytes, marker, hmarker, digits, hline, h⟩
    rw [hline, follows_iff.mp (follows_of_denotes hmarker h)]
    exact ⟨fun hdigits => hbytes (h.eq_nil_iff.mp hdigits), h⟩

/-! ### Refusals -/

/-- What is wrong with a line of an item: nothing follows the marker, or what follows has an odd
number of bytes, or it has a byte that is no digit. -/
inductive Refusal (source : String) (rest : List Char) : Fault → Prop
  | empty : rest = [] → Refusal source rest ⟨.mapping, "Empty key in " ++ source⟩
  | odd : (String.ofList rest).utf8ByteSize % 2 = 1 →
      Refusal source rest
        ⟨.mapping, "Invalid hex key in " ++ source ++ ": Odd number of digits"⟩
  | bad {before after : List UInt8} {byte : UInt8} :
      (String.ofList rest).utf8ByteSize % 2 = 0 → Hex.utf8 rest = before ++ byte :: after →
      (∀ b ∈ before, Char.ofNat b.toNat ∈ Hex.alphabet) →
      Char.ofNat byte.toNat ∉ Hex.alphabet →
      Refusal source rest
        ⟨.mapping, "Invalid hex key in " ++ source ++ ": Invalid character " ++
          Quoted.shownChar (Char.ofNat byte.toNat) ++ " at position " ++
          Text.decimal before.length⟩

/-- Something is wrong with what denotes no byte string. -/
lemma exists_refusal (source : String) (h : ¬ (rest ≠ [] ∧ ∃ bytes, Hex.Denotes rest bytes)) :
    ∃ fault, Refusal source rest fault := by
  by_cases hempty : rest = []
  · exact ⟨_, .empty hempty⟩
  have hlength := Hex.length_utf8 rest
  rcases Nat.mod_two_eq_zero_or_one (String.ofList rest).utf8ByteSize with heven | hodd
  · have hbad : ¬ ∀ b ∈ Hex.utf8 rest, (Hex.byteValue? b).isSome = true := by
      intro hall
      have hdigits := (Hex.forall_utf8_iff rest).mp hall
      rw [← hlength, Hex.length_utf8_of_digits hdigits] at heven
      exact h ⟨hempty, (Hex.exists_denotes_iff rest).mpr ⟨heven, hdigits⟩⟩
    obtain ⟨before, byte, after, hrest, hbefore, hbyte⟩ := Hex.exists_first_bad hbad
    refine ⟨_, .bad heven hrest (fun b hb => Hex.mem_alphabet_iff.mpr (hbefore b hb)) ?_⟩
    rw [Hex.mem_alphabet_iff, Option.not_isSome_iff_eq_none]
    exact hbyte
  · exact ⟨_, .odd hodd⟩

/-- The fault of a line with an odd number of digits. -/
lemma fault_oddLength : (Malformed.badDigits .oddLength).fault source =
    ⟨.mapping, "Invalid hex key in " ++ source ++ ": Odd number of digits"⟩ := by
  have hcolon : ": " ++ "Odd number of digits" = ": Odd number of digits" := by decide
  rw [← hcolon, ← String.append_assoc]
  rfl

/-- The fault of a line with a byte that is no digit. -/
lemma fault_badByte (byte : UInt8) (position : Nat) :
    (Malformed.badDigits (.badByte byte position)).fault source =
      ⟨.mapping, "Invalid hex key in " ++ source ++ ": Invalid character " ++
        Quoted.shownChar (Char.ofNat byte.toNat) ++ " at position " ++ Text.decimal position⟩ := by
  have hcolon : ": " ++ "Invalid character " = ": Invalid character " := by decide
  have hmessage : digitsMessage (.badByte byte position) =
      "Invalid character " ++ Quoted.shownChar (Char.ofNat byte.toNat) ++ " at position " ++
        Text.decimal position := rfl
  simp only [Malformed.fault, hmessage, ← hcolon, String.append_assoc]

/-- A line whose digits the reader complains about is refused with that. -/
lemma parse_of_decode {reason : Hex.Unreadable} (hne : dropMarker line.toList ≠ [])
    (h : Hex.decode (Hex.utf8 (dropMarker line.toList)) = .error reason) :
    parse source line = .error ((Malformed.badDigits reason).fault source) := by
  rw [parse, ofLine, if_neg (by rwa [List.isEmpty_iff]), ← Hex.utf8, h]
  rfl

/-- A line with which something is wrong is refused. -/
lemma parse_of_refusal (h : Refusal source (dropMarker line.toList) fault) :
    parse source line = .error fault := by
  have hlength := Hex.length_utf8 (dropMarker line.toList)
  have hne : Hex.utf8 (dropMarker line.toList) ≠ [] → dropMarker line.toList ≠ [] :=
    mt fun hnil => by rw [hnil]; rfl
  cases h with
  | empty hempty =>
    rw [parse, ofLine, if_pos (List.isEmpty_iff.mpr hempty)]
    rfl
  | odd hodd =>
    rw [← hlength] at hodd
    have hbytes : Hex.utf8 (dropMarker line.toList) ≠ [] := by
      intro hnil
      rw [hnil] at hodd
      exact Nat.zero_ne_one hodd
    rw [parse_of_decode (hne hbytes) (Hex.decode_eq_oddLength hodd), fault_oddLength]
  | @bad before after byte heven hutf8 hbefore hbyte =>
    have hnone : Hex.byteValue? byte = none := by
      rwa [Hex.mem_alphabet_iff, Option.not_isSome_iff_eq_none] at hbyte
    have hsome : ∀ b ∈ before, (Hex.byteValue? b).isSome = true :=
      fun b hb => Hex.mem_alphabet_iff.mp (hbefore b hb)
    have hbytes : Hex.utf8 (dropMarker line.toList) ≠ [] := by
      rw [hutf8]
      exact List.append_ne_nil_of_right_ne_nil before (List.cons_ne_nil byte after)
    rw [← hlength, hutf8] at heven
    have hdecode := Hex.decode_eq_badByte hsome hnone heven
    rw [← hutf8] at hdecode
    rw [parse_of_decode (hne hbytes) hdecode, fault_badByte]

/-- **With which fault a line is refused**: the one that says what is wrong with what follows the
marker. -/
theorem parse_eq_error_iff :
    parse source line = .error fault ↔
      ∃ rest, Follows line.toList rest ∧ Refusal source rest fault := by
  constructor
  · intro hparse
    have hrefused : ¬ (dropMarker line.toList ≠ [] ∧
        ∃ bytes, Hex.Denotes (dropMarker line.toList) bytes) := by
      rintro ⟨hne, bytes, hbytes⟩
      rw [parse, ofLine, if_neg (by rwa [List.isEmpty_iff]), ← Hex.utf8,
        (Hex.decode_utf8_eq_ok_iff _ _).mpr hbytes] at hparse
      cases hparse
    obtain ⟨fault', hfault'⟩ := exists_refusal source hrefused
    rw [parse_of_refusal hfault', Except.error.injEq] at hparse
    exact ⟨_, follows_iff.mpr rfl, hparse ▸ hfault'⟩
  · rintro ⟨rest, hrest, h⟩
    rw [← follows_iff.mp hrest] at h
    exact parse_of_refusal h

/-- Only one marker is taken. -/
example : parse "alpha" "0x0X12" =
    .error ⟨.mapping, "Invalid hex key in alpha: Invalid character 'X' at position 1"⟩ := by
  rfl

/-! ### The grammar of lines -/

/-- **How lines are read.** -/
structure ReadsLines : Prop where
  /-- A line holds a key iff it has digits in pairs, which stand behind one marker at most. -/
  accepts : ∀ source line, (∃ k, parse source line = .ok k) ↔
    ∃ marker ∈ [] :: markers, ∃ digits, line.toList = marker ++ digits ∧ digits ≠ [] ∧
      digits.length % 2 = 0 ∧ ∀ c ∈ digits, c ∈ Hex.alphabet
  /-- The key is made of the bytes that the digits denote, and there are some. -/
  reads : ∀ source line k, parse source line = .ok k → k.source = source ∧ 0 < k.size ∧
    ∃ marker ∈ [] :: markers, ∃ digits, line.toList = marker ++ digits ∧
      Hex.Denotes digits k.material
  /-- Its fingerprint is the digest of them, in 64 digits in lower case. -/
  prints : ∀ k : PrivateKey, k.fingerprint = Hex.encode (Sha256.digest k.material) ∧
    Hex.Denotes k.fingerprint.toList (Sha256.digest k.material) ∧
    k.fingerprint.length = 64 ∧ ∀ c ∈ k.fingerprint.toList, c ∈ Hex.lowerAlphabet
  /-- Every byte string but the empty one is read from its digits in any case, with any marker. -/
  undoes : ∀ source (bytes : List UInt8), bytes ≠ [] → ∀ marker ∈ [] :: markers,
    ∀ digits : List Char, digits.map Char.toLower = (Hex.encode bytes).toList →
      ∃ k, parse source (String.ofList (marker ++ digits)) = .ok k ∧ k.material = bytes
  /-- Keys made of the same bytes are equal, and no hasher tells them apart. -/
  same : ∀ k k' : PrivateKey, k.material = k'.material → (k == k') = true ∧
    ∀ (σ : Type) (write : σ → String → σ) (state : σ),
      k.hashInto write state = k'.hashInto write state
  /-- A line without a key is refused with what is wrong with what follows the marker. -/
  refuses : ∀ source line fault, parse source line = .error fault ↔
    ∃ rest, Follows line.toList rest ∧ Refusal source rest fault

/-- A line that denotes a byte string holds the key made of it. -/
lemma exists_parse_of_bytes? (h : bytes? line = some bytes) :
    ∃ k, parse source line = .ok k ∧ k.material = bytes :=
  ⟨{ source, material := bytes }, parse_eq_ok_iff.mpr ⟨h, rfl⟩, rfl⟩

/-- **Lines are read by their grammar**, and reading undoes writing. -/
theorem readsLines : ReadsLines where
  accepts source line := by
    constructor
    · rintro ⟨k, hk⟩
      obtain ⟨hne, marker, hmarker, digits, hline, h⟩ :=
        bytes?_eq_some_iff.mp (parse_eq_ok_iff.mp hk).1
      obtain ⟨heven, hdigits⟩ := (Hex.exists_denotes_iff digits).mp ⟨_, h⟩
      exact ⟨marker, hmarker, digits, hline, fun hnil => hne (h.eq_nil_iff.mp hnil), heven,
        fun c hc => Hex.mem_alphabet_iff.mpr (hdigits c hc)⟩
    · rintro ⟨marker, hmarker, digits, hline, hne, heven, hdigits⟩
      obtain ⟨bytes, h⟩ := (Hex.exists_denotes_iff digits).mpr
        ⟨heven, fun c hc => Hex.mem_alphabet_iff.mp (hdigits c hc)⟩
      have hbytes : bytes ≠ [] := fun hnil => hne (h.eq_nil_iff.mpr hnil)
      obtain ⟨k, hk, -⟩ := exists_parse_of_bytes?
        (bytes?_eq_some_iff.mpr ⟨hbytes, marker, hmarker, digits, hline, h⟩)
      exact ⟨k, hk⟩
  reads source line k hk := by
    obtain ⟨hbytes, hsource⟩ := parse_eq_ok_iff.mp hk
    obtain ⟨hne, hdigits⟩ := bytes?_eq_some_iff.mp hbytes
    exact ⟨hsource, List.length_pos_iff.mpr hne, hdigits⟩
  prints k := by
    rw [k.fingerprint_eq, Hex.length_encode, Sha256.length_digest]
    exact ⟨rfl, Hex.denotes_encode _, rfl, fun c hc => Hex.mem_lowerAlphabet_of_mem_encode hc⟩
  undoes source bytes hne marker hmarker digits hdigits := by
    refine exists_parse_of_bytes? (bytes?_eq_some_iff.mpr
      ⟨hne, marker, hmarker, digits, String.toList_ofList, ?_⟩)
    exact (Hex.denotes_iff digits bytes).mpr hdigits
  same k k' hmaterial := by
    have hprint : k.fingerprint = k'.fingerprint := by
      rw [k.fingerprint_eq, k'.fingerprint_eq, hmaterial]
    refine ⟨beq_iff.mpr hprint, fun σ write state => ?_⟩
    rw [hashInto, hashInto, hprint]
  refuses source line fault := parse_eq_error_iff

end PrivateKey

end KeyIntake
