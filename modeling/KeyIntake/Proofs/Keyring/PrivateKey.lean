import KeyIntake.Keyring.PrivateKey
import KeyIntake.Proofs.Load.Basic
import Mathlib.Data.List.Forall2
/-!
# Keys from items

A line of a secret denotes a byte string or nothing, whatever item it stands in. The keys of a
secret are those of its lines, all of them or none. A signing key is taken as it is fetched.

## Main definitions

* `PrivateKey.bytes?` — the byte string that a line denotes.
* `PrivateKey.print` — the fingerprint of a byte string.
* `Source.privateKeyLoad`, `Source.signingKeyLoad` — the loads of the keys of a source.

## Main results

* `PrivateKey.parse_eq_ok_iff` — when a line of an item holds a key, and which.
* `Mapping.perLine_eq_value_iff` — a text is mapped line by line, or not at all.
* `PrivateKey.perLine_parse_eq_value_iff`, `PrivateKey.exists_perLine_parse_iff` — the keys of a
  secret, and their fingerprints.
* `Source.exists_yield_privateKeyLoad_iff`, `Source.exists_yield_signingKeyLoad_iff` — when an item
  yields a key.
-/

set_option relaxedAutoImplicit false
set_option autoImplicit false

namespace KeyIntake

/-! ### Mapping line by line -/

/-- An action goes through for a whole list iff it does for each element. -/
lemma List.mapM_eq_ok_iff {ε α β : Type} {f : α → Except ε β} {xs : List α} {ys : List β} :
    xs.mapM f = .ok ys ↔ List.Forall₂ (fun x y => f x = .ok y) xs ys := by
  induction xs generalizing ys with
  | nil =>
    rw [List.mapM_nil, List.forall₂_nil_left_iff]
    exact ⟨fun h => (Except.ok.inj h).symm, fun h => h ▸ rfl⟩
  | cons x rest ih =>
    rw [List.mapM_cons, List.forall₂_cons_left_iff]
    cases hx : f x with
    | error e => simp [bind, Except.bind]
    | ok y =>
      cases hrest : rest.mapM f with
      | error e =>
        have hno (zs : List β) : ¬ List.Forall₂ (fun x y => f x = .ok y) rest zs := by
          intro h
          exact absurd (hrest.symm.trans (ih.mpr h)) (by simp)
        simp [bind, Except.bind, hno]
      | ok zs =>
        have hzs (zs' : List β) :
            List.Forall₂ (fun x y => f x = .ok y) rest zs' ↔ zs = zs' := by
          rw [← ih, hrest, Except.ok.injEq]
        simp [bind, Except.bind, pure, Except.pure, hzs, eq_comm]

namespace Mapping

/-- **A text is mapped line by line, or not at all**: it yields values iff each of its entry lines
yields one, and then these in order. -/
theorem perLine_eq_value_iff {α : Type} {entry : String → String → Except Fault α}
    {name text : String} {values : List α} :
    perLine entry name text = .value values ↔
      List.Forall₂ (fun line v => entry name line = .ok v) (Text.entries text) values := by
  rw [← List.mapM_eq_ok_iff, perLine, onLines]
  cases (Text.entries text).mapM (entry name) <;> simp [Ending.ofExcept]

end Mapping

/-! ### Equality of keys -/

/-- Signing keys are equal iff they have the same identifier. -/
lemma SigningKey.beq_iff {a b : SigningKey} : (a == b) = true ↔ a.id = b.id := by
  show (a.id == b.id) = true ↔ _
  exact beq_iff_eq

instance : EquivBEq SigningKey where
  rfl := SigningKey.beq_iff.mpr rfl
  symm h := SigningKey.beq_iff.mpr (SigningKey.beq_iff.mp h).symm
  trans h k := SigningKey.beq_iff.mpr ((SigningKey.beq_iff.mp h).trans (SigningKey.beq_iff.mp k))

namespace PrivateKey

/-- Private keys are equal iff they have the same fingerprint. -/
lemma beq_iff {a b : PrivateKey} : (a == b) = true ↔ a.fingerprint = b.fingerprint := by
  show (a.fingerprint == b.fingerprint) = true ↔ _
  exact beq_iff_eq

instance : EquivBEq PrivateKey where
  rfl := beq_iff.mpr rfl
  symm h := beq_iff.mpr (beq_iff.mp h).symm
  trans h k := beq_iff.mpr ((beq_iff.mp h).trans (beq_iff.mp k))

/-! ### The key on a line -/

/-- The byte string that a line denotes in hexadecimal digits, after an optional `0x` or `0X`. There
has to be a digit at least. -/
def bytes? (line : String) : Option (List UInt8) :=
  let digits := dropMarker line.toList
  if digits.isEmpty then none else (Hex.decode (digits.flatMap String.utf8EncodeChar)).toOption

/-- The fingerprint of a byte string: its digest in hexadecimal digits. -/
def print (bytes : List UInt8) : String := Hex.encode (Sha256.digest bytes)

/-- **The key on a line of an item** is made of the bytes that the line denotes. -/
theorem parse_eq_ok_iff {source line : String} {k : PrivateKey} :
    parse source line = .ok k ↔ bytes? line = some k.material ∧ k.source = source := by
  have hext (material : List UInt8) :
      ({ source, material } : PrivateKey) = k ↔ material = k.material ∧ k.source = source := by
    obtain ⟨source', material', fingerprint', rfl⟩ := k
    constructor
    · rintro h
      injection h with h₁ h₂
      exact ⟨h₂, h₁.symm⟩
    · rintro ⟨rfl, rfl⟩
      rfl
  unfold parse ofLine bytes?
  dsimp only
  split
  · simp [Except.mapError]
  · cases Hex.decode ((dropMarker line.toList).flatMap String.utf8EncodeChar) with
    | error reason => simp [Except.mapError, Except.toOption]
    | ok material => simp [Except.mapError, Except.toOption, hext]

/-! ### The keys of a secret -/

/-- **The keys of a secret** are those of its entry lines, each of which has to hold one. -/
theorem perLine_parse_eq_value_iff {name text : String} {keys : List PrivateKey} :
    Mapping.perLine parse name text = .value keys ↔
      (Text.entries text).map bytes? = keys.map (some ·.material) ∧
        ∀ k ∈ keys, k.source = name := by
  rw [Mapping.perLine_eq_value_iff]
  generalize Text.entries text = lines
  induction lines generalizing keys with
  | nil =>
    rw [List.forall₂_nil_left_iff, List.map_nil, eq_comm (a := []), List.map_eq_nil_iff]
    constructor
    · rintro rfl
      exact ⟨rfl, fun k hk => absurd hk List.not_mem_nil⟩
    · exact And.left
  | cons line rest ih =>
    rw [List.forall₂_cons_left_iff, List.map_cons]
    constructor
    · rintro ⟨k, keys, hk, hkeys, rfl⟩
      obtain ⟨hbytes, hsource⟩ := parse_eq_ok_iff.mp hk
      obtain ⟨hrest, hsources⟩ := ih.mp hkeys
      exact ⟨by rw [List.map_cons, hbytes, hrest], List.forall_mem_cons.mpr ⟨hsource, hsources⟩⟩
    · rintro ⟨hbytes, hsources⟩
      obtain ⟨k, keys, rfl, hk, hrest⟩ := List.map_eq_cons_iff.mp hbytes.symm
      obtain ⟨hsource, hsources⟩ := List.forall_mem_cons.mp hsources
      exact ⟨k, keys, parse_eq_ok_iff.mpr ⟨hk.symm, hsource⟩, ih.mpr ⟨hrest.symm, hsources⟩, rfl⟩

/-- A secret with keys has no line that denotes nothing. -/
lemma isSome_bytes?_of_perLine {name text line : String} {keys : List PrivateKey}
    (h : Mapping.perLine parse name text = .value keys) (hline : line ∈ Text.entries text) :
    (bytes? line).isSome = true := by
  have hmem : bytes? line ∈ keys.map (some ·.material) := by
    rw [← (perLine_parse_eq_value_iff.mp h).1]
    exact List.mem_map_of_mem hline
  obtain ⟨k, -, hk⟩ := List.mem_map.mp hmem
  rw [← hk]
  rfl

/-- **A text holds a key of a fingerprint** iff each of its entry lines denotes a byte string, and
one of them denotes a byte string of that fingerprint. -/
theorem exists_perLine_parse_iff {name text fingerprint : String} :
    (∃ keys, Mapping.perLine parse name text = .value keys ∧
        ∃ k ∈ keys, k.fingerprint = fingerprint) ↔
      (∀ line ∈ Text.entries text, (bytes? line).isSome = true) ∧
        ∃ line ∈ Text.entries text, ∃ bytes, bytes? line = some bytes ∧
          print bytes = fingerprint := by
  constructor
  · rintro ⟨keys, hkeys, k, hk, rfl⟩
    refine ⟨fun line hline => isSome_bytes?_of_perLine hkeys hline, ?_⟩
    have hmem : some k.material ∈ (Text.entries text).map bytes? := by
      rw [(perLine_parse_eq_value_iff.mp hkeys).1]
      exact List.mem_map_of_mem hk
    obtain ⟨line, hline, hsome⟩ := List.mem_map.mp hmem
    exact ⟨line, hline, k.material, hsome, k.fingerprint_eq.symm⟩
  · rintro ⟨hall, line, hline, bytes, hsome, rfl⟩
    let key (line : String) : PrivateKey :=
      { source := name, material := (bytes? line).getD [] }
    refine ⟨(Text.entries text).map key, perLine_parse_eq_value_iff.mpr ⟨?_, ?_⟩, key line,
      List.mem_map_of_mem hline, ?_⟩
    · rw [List.map_map]
      refine List.map_congr_left fun line hline => ?_
      obtain ⟨bytes, hb⟩ := Option.isSome_iff_exists.mp (hall line hline)
      simp only [Function.comp_apply, key, hb, Option.getD_some]
    · intro k hk
      obtain ⟨line, -, rfl⟩ := List.mem_map.mp hk
      rfl
    · show print ((bytes? line).getD []) = print bytes
      rw [hsome, Option.getD_some]

end PrivateKey

/-! ### The loads of keys -/

namespace Source

variable (s : Source) (limits : Limits) (q : TagQuery)

/-- The load of the private keys that the selected secrets hold. -/
abbrev privateKeyLoad : Load String PrivateKey :=
  s.secretLoad limits q (Mapping.perLine PrivateKey.parse)

/-- The load of the selected signing keys themselves. -/
abbrev signingKeyLoad : Load SigningKey SigningKey := s.keyLoad limits q fun _ key => .value [key]

variable {s limits q} {item : Item}

/-- When a secret yields values under a mapping. -/
lemma yield?_secretLoad_iff {α : Type} {mapping : Mapping String α} {values : List α} :
    (s.secretLoad limits q mapping).yield? item = some values ↔
      ∃ delay text, s.secret item.name = .ends delay (.value text) ∧
        (∀ limit ∈ limits.timeoutMillis, delay ≤ limit) ∧
        mapping item.name text = .value values :=
  Load.yield?_eq_some_iff

/-- When a signing key yields values under a mapping. -/
lemma yield?_keyLoad_iff {α : Type} {mapping : Mapping SigningKey α} {values : List α} :
    (s.keyLoad limits q mapping).yield? item = some values ↔
      ∃ delay k, s.key item.name item.version = .ends delay (.value k) ∧
        (∀ limit ∈ limits.timeoutMillis, delay ≤ limit) ∧
        mapping item.name k = .value values :=
  Load.yield?_eq_some_iff

/-- The private keys of a secret come from that secret. -/
lemma source_of_yield {keys : List PrivateKey}
    (h : (s.privateKeyLoad limits q).yield? item = some keys) :
    ∀ k ∈ keys, k.source = item.name := by
  obtain ⟨delay, text, -, -, hmap⟩ := yield?_secretLoad_iff.mp h
  exact (PrivateKey.perLine_parse_eq_value_iff.mp hmap).2

/-- **A secret yields a key of a fingerprint** iff its text is fetched in time, each entry line of
it denotes a byte string, and one of them denotes a byte string of that fingerprint. -/
lemma exists_yield_privateKeyLoad_iff {fingerprint : String} :
    (∃ keys, (s.privateKeyLoad limits q).yield? item = some keys ∧
        ∃ k ∈ keys, k.fingerprint = fingerprint) ↔
      ∃ delay text, s.secret item.name = .ends delay (.value text) ∧
        (∀ limit ∈ limits.timeoutMillis, delay ≤ limit) ∧
        (∀ line ∈ Text.entries text, (PrivateKey.bytes? line).isSome = true) ∧
        ∃ line ∈ Text.entries text, ∃ bytes, PrivateKey.bytes? line = some bytes ∧
          PrivateKey.print bytes = fingerprint := by
  constructor
  · rintro ⟨keys, hyield, hkey⟩
    obtain ⟨delay, text, hfetch, htime, hmap⟩ := yield?_secretLoad_iff.mp hyield
    exact ⟨delay, text, hfetch, htime, PrivateKey.exists_perLine_parse_iff.mp ⟨keys, hmap, hkey⟩⟩
  · rintro ⟨delay, text, hfetch, htime, hlines⟩
    obtain ⟨keys, hmap, hkey⟩ : ∃ keys, Mapping.perLine PrivateKey.parse item.name text =
        .value keys ∧ ∃ k ∈ keys, k.fingerprint = fingerprint :=
      PrivateKey.exists_perLine_parse_iff.mpr hlines
    exact ⟨keys, yield?_secretLoad_iff.mpr ⟨delay, text, hfetch, htime, hmap⟩, hkey⟩

/-- A secret with a line that denotes nothing yields nothing. -/
lemma yield?_privateKeyLoad_eq_none {delay : Nat} {text line : String}
    (hfetch : s.secret item.name = .ends delay (.value text)) (hline : line ∈ Text.entries text)
    (hbad : PrivateKey.bytes? line = none) :
    (s.privateKeyLoad limits q).yield? item = none := by
  refine Option.eq_none_iff_forall_ne_some.mpr fun keys hyield => ?_
  obtain ⟨delay', text', hfetch', -, hmap⟩ := yield?_secretLoad_iff.mp hyield
  obtain ⟨-, htext⟩ := Fetch.ends.inj (hfetch.symm.trans hfetch')
  obtain rfl := Ending.value.inj htext
  have hsome := PrivateKey.isSome_bytes?_of_perLine hmap hline
  rw [hbad] at hsome
  exact Bool.false_ne_true hsome

/-- **A signing key yields itself** iff it is fetched in time. -/
lemma exists_yield_signingKeyLoad_iff {id : String} :
    (∃ keys, (s.signingKeyLoad limits q).yield? item = some keys ∧ ∃ k ∈ keys, k.id = id) ↔
      ∃ delay k, s.key item.name item.version = .ends delay (.value k) ∧
        (∀ limit ∈ limits.timeoutMillis, delay ≤ limit) ∧ k.id = id := by
  constructor
  · rintro ⟨keys, hyield, k, hk, hid⟩
    obtain ⟨delay, key, hfetch, htime, hmap⟩ := yield?_keyLoad_iff.mp hyield
    rw [← Ending.value.inj hmap] at hk
    rw [List.mem_singleton.mp hk] at hid
    exact ⟨delay, key, hfetch, htime, hid⟩
  · rintro ⟨delay, k, hfetch, htime, hid⟩
    exact ⟨[k], yield?_keyLoad_iff.mpr ⟨delay, k, hfetch, htime, rfl⟩, k,
      List.mem_singleton_self k, hid⟩

end Source

end KeyIntake
