import KeyIntake.Keyring
import KeyIntake.Proofs.Keyring.PrivateKey
import KeyIntake.Proofs.Load.Gathered
/-!
# What a pass brings in

A pass loads secrets and then signing keys, each only if it is selected. If it returns, its keyring
holds the keys that the selected items of either kind yield, and it counts the faults of both
loads. Each kind of key depends on its own listing and fetches alone.

## Main definitions

* `Source.withSecretPages` — a source with another listing of secrets.
* `Source.Registers` — what a pass brings in.

## Main results

* `Source.elapsed_intake_isSome_iff` — when a pass returns.
* `Source.registers_intake` — what a pass that returns brings in.
-/

set_option relaxedAutoImplicit false
set_option autoImplicit false

namespace KeyIntake

attribute [ext] Intake

/-! ### What a keyring holds -/

namespace Keyring

variable {r : Keyring}

/-- A fingerprint is found iff a private key has it. -/
lemma containsFingerprint_iff {fingerprint : String} :
    r.containsFingerprint fingerprint = true ↔
      ∃ k ∈ r.privateKeys.values, k.fingerprint = fingerprint := by
  simp only [containsFingerprint, List.any_eq_true, beq_iff_eq]

/-- An identifier is found iff a signing key has it. -/
lemma exists_key?_iff {id : String} :
    (∃ k, r.key? id = some k) ↔ ∃ k ∈ r.signingKeys.values, k.id = id := by
  rw [← Option.isSome_iff_exists, key?, List.find?_isSome]
  simp only [beq_iff_eq]

end Keyring

/-! ### When a pass returns -/

/-- A pass returns iff each load that it made has returned. -/
lemma Intake.elapsed_isSome_iff (i : Intake) :
    i.elapsed.isSome = true ↔
      (∀ r ∈ i.secrets, r.returned = true) ∧ ∀ r ∈ i.keys, r.returned = true := by
  have hload {α : Type} (r? : Option (Report α)) :
      (∀ r ∈ r?, r.returned = true) ↔ ((r?.map Report.elapsed).getD (some 0)).isSome = true := by
    cases r? <;> simp [Report.returned]
  rw [hload, hload, elapsed]
  cases (i.secrets.map Report.elapsed).getD (some 0) <;>
    cases (i.keys.map Report.elapsed).getD (some 0) <;> simp

namespace Source

section Loads

variable (s : Source) (limits : Limits) (sel : Selection)

/-- A pass starts with the load of secrets, if these are selected. -/
lemma secrets_intake :
    (s.intake limits sel).secrets =
      if sel.secrets then some (s.privateKeyLoad limits sel.query).report else none := rfl

/-- A pass loads signing keys, if these are selected and the load of secrets has returned. -/
lemma keys_intake :
    (s.intake limits sel).keys =
      if sel.keys && ((s.intake limits sel).secrets.map Report.returned).getD true then
        some (s.signingKeyLoad limits sel.query).report
      else none := rfl

variable {s limits sel}

/-- A pass gets to the signing keys if the load of secrets returns. -/
lemma keys_intake_of_returned
    (h : sel.secrets = true → (s.privateKeyLoad limits sel.query).report.returned = true) :
    (s.intake limits sel).keys =
      if sel.keys then some (s.signingKeyLoad limits sel.query).report else none := by
  have hgoes : ((s.intake limits sel).secrets.map Report.returned).getD true = true := by
    rw [secrets_intake]
    split
    case isTrue hsecrets => exact h hsecrets
    case isFalse => rfl
  rw [keys_intake, hgoes, Bool.and_true]

/-- **When a pass returns**: iff the loads of what is selected return. -/
theorem elapsed_intake_isSome_iff :
    (s.intake limits sel).elapsed.isSome = true ↔
      (sel.secrets = true → (s.privateKeyLoad limits sel.query).report.returned = true) ∧
        (sel.keys = true → (s.signingKeyLoad limits sel.query).report.returned = true) := by
  have hsecrets : (∀ r ∈ (s.intake limits sel).secrets, r.returned = true) ↔
      (sel.secrets = true → (s.privateKeyLoad limits sel.query).report.returned = true) := by
    rw [secrets_intake]
    cases sel.secrets <;> simp
  rw [Intake.elapsed_isSome_iff, hsecrets]
  refine and_congr_right fun h => ?_
  rw [keys_intake_of_returned h]
  cases sel.keys <;> simp

end Loads

/-! ### The keyring of a pass -/

section Keyring

variable {s : Source} {limits : Limits} {sel : Selection}

/-- The private keys of a pass are those of its load of secrets. -/
lemma secretHarvest_intake :
    (s.intake limits sel).secretHarvest =
      if sel.secrets then (s.privateKeyLoad limits sel.query).report.harvest else .empty := by
  rw [Intake.secretHarvest, secrets_intake]
  cases sel.secrets <;> rfl

/-- The signing keys of a pass are those of its load of keys. -/
lemma keyHarvest_intake
    (h : sel.secrets = true → (s.privateKeyLoad limits sel.query).report.returned = true) :
    (s.intake limits sel).keyHarvest =
      if sel.keys then (s.signingKeyLoad limits sel.query).report.harvest else .empty := by
  rw [Intake.keyHarvest, keys_intake_of_returned h]
  cases sel.keys <;> rfl

end Keyring

variable (s : Source) (limits : Limits) (sel : Selection)

/-- The source with other pages of secrets. -/
def withSecretPages (pages : List Page) : Source where
  listing
    | .secret => .ok pages
    | .key => s.listing .key
  secret := s.secret
  key := s.key

section OtherPages

variable {α : Type} (pages : List Page) (q : TagQuery)

/-- With other pages of secrets the load of secrets goes through these. -/
lemma secretLoad_withSecretPages (mapping : Mapping String α) :
    (s.withSecretPages pages).secretLoad limits q mapping =
      (s.secretLoad limits q mapping).withPages pages := rfl

/-- The load of signing keys stays the same. -/
lemma keyLoad_withSecretPages (mapping : Mapping SigningKey α) :
    (s.withSecretPages pages).keyLoad limits q mapping = s.keyLoad limits q mapping := rfl

end OtherPages

/-- **What a pass over a source brings in**, if it returns. -/
structure Registers (i : Intake) : Prop where
  /-- A fingerprint is held iff some secret has it: the secret is listed before the first page that
  fails, it has the required tags, its text is fetched in time, each entry line of the text denotes
  a byte string, and one of them denotes a byte string with this digest. -/
  fingerprints : ∀ fingerprint, i.keyring.containsFingerprint fingerprint = true ↔
    sel.secrets = true ∧
      ∃ item, .readable item ∈ (s.privateKeyLoad limits sel.query).entries ∧
        sel.query.selects item.tags = true ∧
        ∃ delay text, s.secret item.name = .ends delay (.value text) ∧
          (∀ limit ∈ limits.timeoutMillis, delay ≤ limit) ∧
          (∀ line ∈ Text.entries text, (PrivateKey.bytes? line).isSome = true) ∧
          ∃ line ∈ Text.entries text, ∃ bytes, PrivateKey.bytes? line = some bytes ∧
            Hex.encode (Sha256.digest bytes) = fingerprint
  /-- An identifier is known iff some signing key has it: it is listed before the first page that
  fails, it has the required tags, and it is fetched in time. -/
  ids : ∀ id, (∃ k, i.keyring.key? id = some k) ↔
    sel.keys = true ∧
      ∃ item, .readable item ∈ (s.signingKeyLoad limits sel.query).entries ∧
        sel.query.selects item.tags = true ∧
        ∃ delay k, s.key item.name item.version = .ends delay (.value k) ∧
          (∀ limit ∈ limits.timeoutMillis, delay ≤ limit) ∧ k.id = id
  /-- A signing key is found under its own identifier. -/
  id_of_key? : ∀ id k, i.keyring.key? id = some k → k.id = id
  /-- No two private keys have the same fingerprint. -/
  fingerprints_nodup : (i.keyring.privateKeys.values.map PrivateKey.fingerprint).Nodup
  /-- No two signing keys have the same identifier. -/
  ids_nodup : (i.keyring.signingKeys.values.map SigningKey.id).Nodup
  /-- All of them are counted. -/
  size : i.keyring.size =
    (i.keyring.privateKeys.values.map PrivateKey.fingerprint).length +
      (i.keyring.signingKeys.values.map SigningKey.id).length
  /-- The faults of the selected loads are counted together. -/
  faults : i.keyring.faults =
    (if sel.secrets then (s.privateKeyLoad limits sel.query).report.harvest.faults else 0) +
      if sel.keys then (s.signingKeyLoad limits sel.query).report.harvest.faults else 0
  /-- Those of the load of secrets. -/
  faults_secrets : sel.secrets = true →
    (s.privateKeyLoad limits sel.query).report.harvest.faults =
      (s.privateKeyLoad limits sel.query).faults
  /-- Those of the load of signing keys. -/
  faults_keys : sel.keys = true →
    (s.signingKeyLoad limits sel.query).report.harvest.faults =
      (s.signingKeyLoad limits sel.query).faults
  /-- A secret with a line that denotes nothing counts as one fault and does nothing else: without
  it the pass returns with the same keys. -/
  malformed : sel.secrets = true → ∀ pages before item after delay text line,
    (s.privateKeyLoad limits sel.query).entries = before ++ .readable item :: after →
    sel.query.selects item.tags = true →
    s.secret item.name = .ends delay (.value text) → line ∈ Text.entries text →
    PrivateKey.bytes? line = none →
    (Page.intact pages).flatten = before ++ after →
    (Page.failure? pages).isSome = (s.privateKeyLoad limits sel.query).lostPage?.isSome →
    let j := (s.withSecretPages pages).intake limits sel
    j.elapsed.isSome = true ∧
      (∀ fingerprint, i.keyring.containsFingerprint fingerprint =
        j.keyring.containsFingerprint fingerprint) ∧
      i.keyring.signingKeys = j.keyring.signingKeys ∧ i.keyring.faults = j.keyring.faults + 1
  /-- The private keys depend only on the listing of secrets and their fetches. -/
  privateKeys_congr : ∀ s' : Source, s'.listing .secret = s.listing .secret →
    s'.secret = s.secret →
    (s'.intake limits sel).secrets = i.secrets ∧
      (s'.intake limits sel).keyring.privateKeys = i.keyring.privateKeys
  /-- The signing keys depend only on the listing of keys and their fetches, among passes that
  return. -/
  signingKeys_congr : ∀ s' : Source, s'.listing .key = s.listing .key → s'.key = s.key →
    (s'.intake limits sel).elapsed.isSome = true →
    (s'.intake limits sel).keys = i.keys ∧
      (s'.intake limits sel).keyring.signingKeys = i.keyring.signingKeys
  /-- Secrets that are not selected are neither listed nor fetched: nothing depends on them. -/
  secrets_unselected : sel.secrets = false → i.secrets = none ∧
    ∀ s' : Source, s'.listing .key = s.listing .key → s'.key = s.key → s'.intake limits sel = i
  /-- Neither are signing keys. -/
  keys_unselected : sel.keys = false → i.keys = none ∧
    ∀ s' : Source, s'.listing .secret = s.listing .secret → s'.secret = s.secret →
      s'.intake limits sel = i

/-! ### Why a pass brings in that -/

section Proofs

variable {s : Source} {limits : Limits} {sel : Selection}

/-- The load of private keys depends only on the listing of secrets and their fetches. -/
lemma privateKeyLoad_congr {s' : Source} (hlisting : s'.listing .secret = s.listing .secret)
    (hfetch : s'.secret = s.secret) (q : TagQuery) :
    s'.privateKeyLoad limits q = s.privateKeyLoad limits q := by
  simp only [privateKeyLoad, secretLoad, hlisting, hfetch]

/-- The load of signing keys depends only on the listing of keys and their fetches. -/
lemma signingKeyLoad_congr {s' : Source} (hlisting : s'.listing .key = s.listing .key)
    (hfetch : s'.key = s.key) (q : TagQuery) :
    s'.signingKeyLoad limits q = s.signingKeyLoad limits q := by
  simp only [signingKeyLoad, keyLoad, hlisting, hfetch]

variable (hret : (s.intake limits sel).elapsed.isSome = true)

include hret

/-- A key with a fingerprint is held iff the selected secrets yield one. -/
lemma exists_privateKey_intake_iff {fingerprint : String} :
    (∃ k ∈ (s.intake limits sel).keyring.privateKeys.values, k.fingerprint = fingerprint) ↔
      sel.secrets = true ∧
        ∃ k ∈ (s.privateKeyLoad limits sel.query).yields, k.fingerprint = fingerprint := by
  have hkeyring : (s.intake limits sel).keyring.privateKeys =
      (s.intake limits sel).secretHarvest.values := rfl
  rw [hkeyring, secretHarvest_intake]
  cases hsecrets : sel.secrets with
  | false => simp [Harvest.empty, Distinct.empty]
  | true =>
    rw [if_pos rfl, Load.exists_kept_iff ((elapsed_intake_isSome_iff.mp hret).1 hsecrets)
      PrivateKey.beq_iff]
    exact (and_iff_right rfl).symm

/-- A signing key with an identifier is held iff the selected items yield one. -/
lemma exists_signingKey_intake_iff {id : String} :
    (∃ k ∈ (s.intake limits sel).keyring.signingKeys.values, k.id = id) ↔
      sel.keys = true ∧ ∃ k ∈ (s.signingKeyLoad limits sel.query).yields, k.id = id := by
  obtain ⟨hsecrets, hkeys⟩ := elapsed_intake_isSome_iff.mp hret
  have hkeyring : (s.intake limits sel).keyring.signingKeys =
      (s.intake limits sel).keyHarvest.values := rfl
  rw [hkeyring, keyHarvest_intake hsecrets]
  cases hsel : sel.keys with
  | false => simp [Harvest.empty, Distinct.empty]
  | true =>
    rw [if_pos rfl, Load.exists_kept_iff (hkeys hsel) SigningKey.beq_iff]
    exact (and_iff_right rfl).symm

/-- The faults of a pass are those of the selected loads. -/
lemma faults_intake :
    (s.intake limits sel).keyring.faults =
      (if sel.secrets then (s.privateKeyLoad limits sel.query).report.harvest.faults else 0) +
        if sel.keys then (s.signingKeyLoad limits sel.query).report.harvest.faults else 0 := by
  rw [Intake.keyring, secretHarvest_intake,
    keyHarvest_intake (elapsed_intake_isSome_iff.mp hret).1]
  cases sel.secrets <;> cases sel.keys <;> rfl

/-- **A secret with a malformed line** has one fault and no other influence.

**Proof sketch.** It yields nothing, so the load without it gathers the same and counts one fault
less. The load of signing keys does not notice. -/
lemma malformed_intake (hsecrets : sel.secrets = true) {pages : List Page}
    {before after : List ListingEntry} {item : Item} {delay : Nat} {text line : String}
    (hentries : (s.privateKeyLoad limits sel.query).entries = before ++ .readable item :: after)
    (hselects : sel.query.selects item.tags = true)
    (hfetch : s.secret item.name = .ends delay (.value text)) (hline : line ∈ Text.entries text)
    (hbad : PrivateKey.bytes? line = none)
    (hpages : (Page.intact pages).flatten = before ++ after)
    (hlost : (Page.failure? pages).isSome =
      (s.privateKeyLoad limits sel.query).lostPage?.isSome) :
    ((s.withSecretPages pages).intake limits sel).elapsed.isSome = true ∧
      (∀ fingerprint, (s.intake limits sel).keyring.containsFingerprint fingerprint =
        ((s.withSecretPages pages).intake limits sel).keyring.containsFingerprint fingerprint) ∧
      (s.intake limits sel).keyring.signingKeys =
        ((s.withSecretPages pages).intake limits sel).keyring.signingKeys ∧
      (s.intake limits sel).keyring.faults =
        ((s.withSecretPages pages).intake limits sel).keyring.faults + 1 := by
  obtain ⟨hret₁, hret₂⟩ := elapsed_intake_isSome_iff.mp hret
  have hload : (s.withSecretPages pages).privateKeyLoad limits sel.query =
      (s.privateKeyLoad limits sel.query).withPages pages := s.secretLoad_withSecretPages _ _ _ _
  have hkeys : (s.withSecretPages pages).signingKeyLoad limits sel.query =
      s.signingKeyLoad limits sel.query := s.keyLoad_withSecretPages _ _ _ _
  have hopen : (s.privateKeyLoad limits sel.query).listing.isOk = true := by
    cases hlisting : (s.privateKeyLoad limits sel.query).listing with
    | ok _ => rfl
    | error fault =>
      rw [Load.entries, Load.pages_of_error _ hlisting] at hentries
      exact absurd hentries (by simp [Page.intact])
  have hyield : (s.privateKeyLoad limits sel.query).yield? item = none :=
    yield?_privateKeyLoad_eq_none hfetch hline hbad
  obtain ⟨hfaults, hyields, hsubset⟩ := Load.leave_out hopen hentries hpages hlost hselects hyield
  have hret' := Load.returned_withPages (hret₁ hsecrets) hsubset
  have helapsed : ((s.withSecretPages pages).intake limits sel).elapsed.isSome = true := by
    rw [elapsed_intake_isSome_iff, hload, hkeys]
    exact ⟨fun _ => hret', hret₂⟩
  refine ⟨helapsed, fun fingerprint => ?_, ?_, ?_⟩
  · rw [Bool.eq_iff_iff, Keyring.containsFingerprint_iff, Keyring.containsFingerprint_iff,
      exists_privateKey_intake_iff hret, exists_privateKey_intake_iff helapsed, hload, hyields]
  · show (s.intake limits sel).keyHarvest.values =
      ((s.withSecretPages pages).intake limits sel).keyHarvest.values
    rw [keyHarvest_intake hret₁,
      keyHarvest_intake (elapsed_intake_isSome_iff.mp helapsed).1, hkeys]
  · rw [faults_intake hret, faults_intake helapsed, hload, hkeys, if_pos hsecrets, if_pos hsecrets,
      Load.faults_report (hret₁ hsecrets), Load.faults_report hret', hfaults, Nat.add_right_comm]

/-- **What a pass that returns brings in.**

**Proof sketch.** Each load that was made has gathered what its selected items yield, and two
sources that agree on a kind have the same load of that kind. -/
theorem registers_intake : s.Registers limits sel (s.intake limits sel) where
  fingerprints fingerprint := by
    rw [Keyring.containsFingerprint_iff, exists_privateKey_intake_iff hret,
      Load.exists_yields_iff]
    simp only [Load.mem_selected_iff, exists_yield_privateKeyLoad_iff, and_assoc]
    rfl
  ids id := by
    rw [Keyring.exists_key?_iff, exists_signingKey_intake_iff hret, Load.exists_yields_iff]
    simp only [Load.mem_selected_iff, exists_yield_signingKeyLoad_iff, and_assoc]
    rfl
  id_of_key? id k hk := by
    rw [Keyring.key?] at hk
    have hid := List.find?_some hk
    exact beq_iff_eq.mp hid
  fingerprints_nodup := Distinct.nodup_map _ PrivateKey.beq_iff
  ids_nodup := Distinct.nodup_map _ SigningKey.beq_iff
  size := by rw [List.length_map, List.length_map]; rfl
  faults := faults_intake hret
  faults_secrets hsecrets := Load.faults_report ((elapsed_intake_isSome_iff.mp hret).1 hsecrets)
  faults_keys hkeys := Load.faults_report ((elapsed_intake_isSome_iff.mp hret).2 hkeys)
  malformed hsecrets pages before item after delay text line hentries hselects hfetch hline hbad
      hpages hlost :=
    malformed_intake hret hsecrets hentries hselects hfetch hline hbad hpages hlost
  privateKeys_congr s' hlisting hfetch := by
    have hsame : (s'.intake limits sel).secrets = (s.intake limits sel).secrets := by
      rw [secrets_intake, secrets_intake, privateKeyLoad_congr hlisting hfetch]
    refine ⟨hsame, ?_⟩
    show (s'.intake limits sel).secretHarvest.values = (s.intake limits sel).secretHarvest.values
    rw [Intake.secretHarvest, Intake.secretHarvest, hsame]
  signingKeys_congr s' hlisting hfetch hret' := by
    have hsame : (s'.intake limits sel).keys = (s.intake limits sel).keys := by
      rw [keys_intake_of_returned (elapsed_intake_isSome_iff.mp hret').1,
        keys_intake_of_returned (elapsed_intake_isSome_iff.mp hret).1,
        signingKeyLoad_congr hlisting hfetch]
    refine ⟨hsame, ?_⟩
    show (s'.intake limits sel).keyHarvest.values = (s.intake limits sel).keyHarvest.values
    rw [Intake.keyHarvest, Intake.keyHarvest, hsame]
  secrets_unselected hsecrets := by
    have hno (s' : Source) : sel.secrets = true →
        (s'.privateKeyLoad limits sel.query).report.returned = true := by
      rw [hsecrets]
      exact fun h => absurd h Bool.false_ne_true
    have hnone (s' : Source) : (s'.intake limits sel).secrets = none := by
      rw [secrets_intake, hsecrets]
      rfl
    refine ⟨hnone s, fun s' hlisting hfetch => Intake.ext ?_ ?_⟩
    · rw [hnone, hnone]
    · rw [keys_intake_of_returned (hno s'), keys_intake_of_returned (hno s),
        signingKeyLoad_congr hlisting hfetch]
  keys_unselected hkeys := by
    have hnone (s' : Source) : (s'.intake limits sel).keys = none := by
      rw [keys_intake, hkeys]
      rfl
    refine ⟨hnone s, fun s' hlisting hfetch => Intake.ext ?_ ?_⟩
    · rw [secrets_intake, secrets_intake, privateKeyLoad_congr hlisting hfetch]
    · rw [hnone, hnone]

end Proofs

/-- A source of two secrets, the first of which holds a key twice and the second a malformed line,
and of two signing keys with the same identifier on two pages, after which the listing fails. -/
def motley : Source where
  listing
    | .secret => .ok
        [{ content := .ok [.readable { name := "alpha" }, .readable { name := "bravo" }] }]
    | .key => .ok [{ content := .ok [.readable { name := "delta" }] },
        { content := .ok [.readable { name := "echo" }] },
        { content := .error ⟨.externalService, "connection reset"⟩ }]
  secret name := .ends 1 (.value (if name = "alpha" then "0x01\n\n  01  \n" else "02\nnone\n"))
  key name _ := .ends 2 (.value { mount := "transit", name, id := "signer" })

/-- One private key and one signing key are registered; the malformed line is one fault and the page
that fails another one. Without the secret with that line, the pass counts one fault less. -/
theorem registers_motley :
    motley.Registers {} { keys := true } (motley.intake {} { keys := true }) ∧
      (motley.intake {} { keys := true }).keyring.size = 2 ∧
      (motley.intake {} { keys := true }).keyring.faults = 2 ∧
      ((motley.withSecretPages [{ content := .ok [.readable { name := "alpha" }] }]).intake {}
        { keys := true }).keyring.faults = 1 := by
  have h : motley.Registers {} { keys := true } (motley.intake {} { keys := true }) :=
    registers_intake (by decide)
  have hfaults : (motley.intake {} { keys := true }).keyring.faults = 2 :=
    h.faults.trans (by decide)
  have hwithout := h.malformed rfl [{ content := .ok [.readable { name := "alpha" }] }]
    [.readable { name := "alpha" }] { name := "bravo" } [] 1 "02\nnone\n" "none" rfl rfl rfl
    (by decide) (by decide) rfl rfl
  refine ⟨h, h.size.trans (by decide +kernel), hfaults, ?_⟩
  have hone := hwithout.2.2.2
  rw [hfaults] at hone
  omega

end Source

end KeyIntake
