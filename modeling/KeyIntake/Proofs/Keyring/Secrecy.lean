import KeyIntake.Proofs.Keyring.Content
import KeyIntake.Proofs.Load.Correspondence
import KeyIntake.Settings
/-!
# What a pass gives away

Replace the keys on the lines of secrets by other keys, such that lines with the same fingerprint
still have the same one and lines with different fingerprints still have different ones. A pass over
the source does not tell the difference: it fetches the same items at the same instants, logs the
same, moves the same counters, and ends at the same instant with as many keys and faults. The keys
that it brings in correspond to each other, and what is shown of them differs in the fingerprints
only. Neither does the credential in the settings show.

This is a statement about two passes. Their loads are compared step by step by means of the keys on
corresponding lines: these respect the equality of keys, which is all that a load looks at.

## Main definitions

* `PrivateKey.fingerprint?` — the fingerprint of the key on a line.
* `Source.chosenSecrets`, `Source.linePairs` — the secrets that are fetched, and their lines in two
  sources side by side.
* `Source.Rekeyed` — a source with other keys on the lines of its secrets.
* `Source.SameKey` — keys on corresponding lines.
* `Source.Indistinguishable` — what two passes have in common.

## Main results

* `Source.respectsEquality_sameKey` — keys on corresponding lines respect equality.
* `Source.alike_privateKeyLoad` — the loads of secrets start jobs alike.
* `Source.indistinguishable_intake` — the passes cannot be told apart.
-/

set_option relaxedAutoImplicit false
set_option autoImplicit false

namespace KeyIntake

/-! ### Lines and their fingerprints -/

namespace PrivateKey

/-- The fingerprint of the key on a line, if it holds one. -/
def fingerprint? (line : String) : Option String := (bytes? line).map print

/-- The key on a line of an item has the fingerprint of the line. -/
lemma fingerprint?_of_parse {name line : String} {k : PrivateKey} (h : parse name line = .ok k) :
    fingerprint? line = some k.fingerprint ∧ k.source = name := by
  obtain ⟨hbytes, hsource⟩ := parse_eq_ok_iff.mp h
  refine ⟨?_, hsource⟩
  rw [fingerprint?, hbytes, Option.map_some, k.fingerprint_eq]
  rfl

/-- A text each of whose lines holds a key holds keys. -/
lemma exists_perLine_parse {name text : String}
    (h : ∀ line ∈ Text.entries text, (bytes? line).isSome = true) :
    ∃ keys, Mapping.perLine parse name text = .value keys := by
  let key (line : String) : PrivateKey := { source := name, material := (bytes? line).getD [] }
  refine ⟨(Text.entries text).map key, Mapping.perLine_eq_value_iff.mpr ?_⟩
  rw [List.forall₂_map_right_iff]
  refine List.forall₂_same.mpr fun line hline => parse_eq_ok_iff.mpr ⟨?_, rfl⟩
  obtain ⟨bytes, hbytes⟩ := Option.isSome_iff_exists.mp (h line hline)
  simp only [key, hbytes, Option.getD_some]

/-- **What is shown of two keys differs in their fingerprints only.** -/
def ShownAlike (k k' : PrivateKey) : Prop :=
  ∃ before after, k.shown = before ++ Quoted.shown k.fingerprint ++ after ∧
    k'.shown = before ++ Quoted.shown k'.fingerprint ++ after

/-- What is shown of a key depends on its source and its fingerprint. -/
lemma shownAlike_of_source {k k' : PrivateKey} (h : k.source = k'.source) : k.ShownAlike k' := by
  have hshown (k : PrivateKey) : k.shown =
      "RegistryEntry \x7b source: " ++ Quoted.shown k.source ++ ", fingerprint: " ++
        Quoted.shown k.fingerprint ++
          (", material: " ++ Quoted.shown "[REDACTED]" ++ " \x7d") := by
    simp only [shown, Quoted.shownRecord, List.map_cons, List.map_nil,
      String.intercalate_cons_cons, String.intercalate_singleton, String.append_assoc]
    rfl
  refine ⟨_, _, hshown k, ?_⟩
  rw [h]
  exact hshown k'

end PrivateKey

/-- Elements of two lists that come from elements at the same place in two other lists. -/
lemma List.forall₂_of_zip {α β γ δ : Type} {P : α → γ → Prop} {Q : β → δ → Prop} {xs : List α}
    {ys : List β} {us : List γ} {vs : List δ} (hxs : List.Forall₂ P xs us)
    (hys : List.Forall₂ Q ys vs) (hlength : xs.length = ys.length) :
    List.Forall₂ (fun u v => ∃ x ∈ xs.zip ys, P x.1 u ∧ Q x.2 v) us vs := by
  induction hxs generalizing ys vs with
  | nil =>
    obtain rfl := List.length_eq_zero_iff.mp hlength.symm
    rw [List.forall₂_nil_left_iff] at hys
    rw [hys]
    exact .nil
  | @cons x u xs us hx _ ih =>
    cases hys with
    | nil => exact absurd hlength (Nat.succ_ne_zero _)
    | @cons y v ys vs hy hrest =>
      refine .cons ⟨(x, y), List.mem_cons_self, hx, hy⟩ ?_
      refine (ih hrest (Nat.succ.inj hlength)).imp ?_
      rintro u v ⟨x, hx, h⟩
      exact ⟨x, List.mem_cons_of_mem _ hx, h⟩

/-- The entry lines of the text that a fetch gives, if it gives one. -/
def Fetch.lines : Fetch String → List String
  | .ends _ (.value text) => Text.entries text
  | .ends _ (.fault _) | .ends _ (.panic _) | .hangs => []

/-- **A fetch with other keys**: it gives another text after the same delay, with as many lines, and
each line of either text holds a key. -/
def Fetch.Rekeyed (f f' : Fetch String) : Prop :=
  ∃ delay text text', f = .ends delay (.value text) ∧ f' = .ends delay (.value text') ∧
    (Text.entries text).length = (Text.entries text').length ∧
    (∀ line ∈ Text.entries text, (PrivateKey.bytes? line).isSome = true) ∧
    ∀ line ∈ Text.entries text', (PrivateKey.bytes? line).isSome = true

namespace Source

/-! ### Sources with other keys -/

/-- The secrets that a pass fetches with a selection, as far as they are listed. -/
def chosenSecrets (s : Source) (sel : Selection) : List Item :=
  if sel.secrets then (s.privateKeyLoad {} sel.query).selected else []

/-- The lines of a secret in two sources side by side. -/
def linePairs (s s' : Source) (name : String) : List (String × String) :=
  (s.secret name).lines.zip (s'.secret name).lines

/-- The lines of all chosen secrets in two sources side by side. -/
def allLinePairs (sel : Selection) (s s' : Source) : List (String × String) :=
  (s.chosenSecrets sel).flatMap fun item => s.linePairs s' item.name

/-- **A source with other keys** on the lines of its secrets, as far as a selection chooses them.
The two sources list the same and agree on the fetches of signing keys. The fetch of a chosen secret
is the same, or it gives other keys. Two lines anywhere in the chosen secrets have the same
fingerprint in one source iff the lines at their places have in the other one. Secrets that are not
chosen may be anything. -/
structure Rekeyed (sel : Selection) (s s' : Source) : Prop where
  listing : ∀ kind, s'.listing kind = s.listing kind
  key : ∀ name version, s'.key name version = s.key name version
  secret : ∀ item ∈ s.chosenSecrets sel,
    s'.secret item.name = s.secret item.name ∨ (s.secret item.name).Rekeyed (s'.secret item.name)
  fingerprint : ∀ x ∈ allLinePairs sel s s', ∀ y ∈ allLinePairs sel s s',
    (PrivateKey.fingerprint? x.1 = PrivateKey.fingerprint? y.1 ↔
      PrivateKey.fingerprint? x.2 = PrivateKey.fingerprint? y.2)

/-- **Keys on corresponding lines** of a chosen secret of two sources. -/
structure SameKey (sel : Selection) (s s' : Source) (k k' : PrivateKey) : Prop where
  source : k.source = k'.source
  line : ∃ item ∈ s.chosenSecrets sel, item.name = k.source ∧
    ∃ x ∈ s.linePairs s' item.name, PrivateKey.fingerprint? x.1 = some k.fingerprint ∧
      PrivateKey.fingerprint? x.2 = some k'.fingerprint

variable {sel : Selection} {s s' : Source}

/-- **Keys on corresponding lines respect equality**: they are equal in one source iff they are in
the other. -/
theorem respectsEquality_sameKey (h : Rekeyed sel s s') : RespectsEquality (SameKey sel s s') := by
  rintro a b a' b' ⟨-, item, hitem, -, x, hx, hxa, hxa'⟩ ⟨-, item', hitem', -, y, hy, hyb, hyb'⟩
  have hiff := h.fingerprint x (List.mem_flatMap.mpr ⟨item, hitem, hx⟩)
    y (List.mem_flatMap.mpr ⟨item', hitem', hy⟩)
  rw [hxa, hxa', hyb, hyb', Option.some.injEq, Option.some.injEq] at hiff
  rw [Bool.eq_iff_iff, PrivateKey.beq_iff, PrivateKey.beq_iff]
  exact hiff

/-- Two texts of a chosen secret with as many lines hold keys on corresponding lines. -/
lemma forall₂_sameKey {item : Item} (hitem : item ∈ s.chosenSecrets sel) {delay delay' : Nat}
    {text text' : String} (hfetch : s.secret item.name = .ends delay (.value text))
    (hfetch' : s'.secret item.name = .ends delay' (.value text'))
    (hlength : (Text.entries text).length = (Text.entries text').length)
    {keys keys' : List PrivateKey}
    (hkeys : Mapping.perLine PrivateKey.parse item.name text = .value keys)
    (hkeys' : Mapping.perLine PrivateKey.parse item.name text' = .value keys') :
    List.Forall₂ (SameKey sel s s') keys keys' := by
  rw [Mapping.perLine_eq_value_iff] at hkeys hkeys'
  have hpairs : s.linePairs s' item.name = (Text.entries text).zip (Text.entries text') := by
    rw [linePairs, hfetch, hfetch']
    rfl
  refine (List.forall₂_of_zip hkeys hkeys' hlength).imp ?_
  rintro k k' ⟨x, hx, hk, hk'⟩
  obtain ⟨hprint, hsource⟩ := PrivateKey.fingerprint?_of_parse hk
  obtain ⟨hprint', hsource'⟩ := PrivateKey.fingerprint?_of_parse hk'
  exact ⟨hsource.trans hsource'.symm, item, hitem, hsource.symm, x, hpairs ▸ hx, hprint, hprint'⟩

/-- The course of the job of a secret is that of its fetch, with the keys on the lines. -/
lemma course_privateKeyLoad (s : Source) (limits : Limits) (q : TagQuery) (item : Item) :
    ((s.privateKeyLoad limits q).job item).course =
      ((s.secret item.name).within limits.timeoutMillis).map fun p =>
        (p.1, (p.2.andThen (Mapping.perLine PrivateKey.parse item.name)).settle) := by
  simp only [Load.job, Job.of, privateKeyLoad, secretLoad]

/-- The job of a secret that holds keys ends with these, or it is cut off. -/
lemma course_of_keys (limits : Limits) (q : TagQuery) {item : Item} {delay : Nat} {text : String}
    {keys : List PrivateKey} (hfetch : s.secret item.name = .ends delay (.value text))
    (hkeys : Mapping.perLine PrivateKey.parse item.name text = .value keys) :
    ((s.privateKeyLoad limits q).job item).course =
      if limits.allows delay then some (delay, .ok keys)
      else limits.timeoutMillis.map fun limit => (limit, .error (Fetch.timeoutFault limit)) := by
  have hsettle : ((Ending.value text).andThen
      (Mapping.perLine PrivateKey.parse item.name)).settle = .ok keys := by
    rw [Ending.andThen, hkeys, Ending.settle]
  rw [course_privateKeyLoad, hfetch]
  unfold Limits.allows
  cases limits.timeoutMillis with
  | none =>
    rw [if_pos rfl, Fetch.within, Option.map_some, hsettle]
  | some limit =>
    by_cases hdelay : delay ≤ limit
    · simp only [Fetch.within, Option.map_some, hsettle, hdelay, decide_true, if_true]
    · simp only [Fetch.within, Option.map_some, hdelay, decide_false, Bool.false_eq_true,
        if_false]
      rfl

/-- **The jobs of a chosen secret are alike**: they take the same time, and yield keys on
corresponding lines or the same fault.

**Proof sketch.** If the secret is fetched in the same way, the jobs are the same, and what they
yield comes from the lines of one text. If it is fetched with other keys, both jobs end after the
delay with the keys on their lines, or are cut off at the same instant. -/
lemma alike_job (h : Rekeyed sel s s') (limits : Limits) {item : Item}
    (hitem : item ∈ s.chosenSecrets sel) :
    Job.Alike (SameKey sel s s') ((s.privateKeyLoad limits sel.query).job item)
      ((s'.privateKeyLoad limits sel.query).job item) := by
  rcases h.secret item hitem with
    hsame | ⟨delay, text, text', hfetch, hfetch', hlength, hall, hall'⟩
  · have hcourse : ((s'.privateKeyLoad limits sel.query).job item).course =
        ((s.privateKeyLoad limits sel.query).job item).course := by
      rw [course_privateKeyLoad, course_privateKeyLoad, hsame]
    rcases (s.privateKeyLoad limits sel.query).course_job item with
      ⟨-, -, hc⟩ | ⟨duration, -, -, ⟨keys, hyield, hc⟩ | ⟨fault, -, hc⟩⟩
    · exact .stuck rfl hc (hcourse.trans hc)
    · obtain ⟨delay, text, hfetch, -, hkeys⟩ := yield?_secretLoad_iff.mp hyield
      exact .ends rfl hc (hcourse.trans hc)
        (.ok (forall₂_sameKey hitem hfetch (hsame.trans hfetch) rfl hkeys hkeys))
    · exact .ends rfl hc (hcourse.trans hc) (.error fault)
  · obtain ⟨keys, hkeys⟩ := PrivateKey.exists_perLine_parse hall
    obtain ⟨keys', hkeys'⟩ := PrivateKey.exists_perLine_parse hall'
    have halike := forall₂_sameKey hitem hfetch hfetch' hlength hkeys hkeys'
    have hcourse := course_of_keys limits sel.query hfetch hkeys
    have hcourse' := course_of_keys limits sel.query hfetch' hkeys'
    by_cases hallows : limits.allows delay = true
    · rw [if_pos hallows] at hcourse hcourse'
      exact .ends rfl hcourse hcourse' (.ok halike)
    · obtain ⟨limit, htime, -⟩ := Limits.exists_of_not_allows hallows
      rw [if_neg hallows, htime] at hcourse hcourse'
      exact .ends rfl hcourse hcourse' (.error _)

/-- **The loads of secrets start jobs alike**, if secrets are chosen at all. -/
lemma alike_privateKeyLoad (h : Rekeyed sel s s') (limits : Limits)
    (hsecrets : sel.secrets = true) :
    Load.Alike (SameKey sel s s') (s.privateKeyLoad limits sel.query)
      (s'.privateKeyLoad limits sel.query) := by
  refine ⟨rfl, rfl, rfl, (h.listing .secret).symm, fun item hitem => alike_job h limits ?_⟩
  rw [chosenSecrets, if_pos hsecrets]
  exact hitem

end Source

/-! ### Two passes -/

namespace Intake

variable {R : PrivateKey → PrivateKey → Prop} {i i' : Intake}

variable (R) in
/-- **Passes that differ in corresponding private keys only.** -/
structure Alike (i i' : Intake) : Prop where
  secrets : Option.Rel (Report.Alike R) i.secrets i'.secrets
  keys : i.keys = i'.keys

variable (R) in
/-- **Passes that cannot be told apart**: whatever is logged, counted and measured is the same, and
private keys correspond. -/
structure Indistinguishable (i i' : Intake) : Prop where
  /-- The same is logged, in the same order. -/
  records : i.records = i'.records
  /-- The same counters are moved. -/
  counters : i.counters = i'.counters
  /-- The same secrets are fetched, at the same instants. -/
  starts : i.secrets.map Report.starts = i'.secrets.map Report.starts
  /-- The loads of secrets return at the same instant, or neither does. -/
  returns : i.secrets.map Report.elapsed = i'.secrets.map Report.elapsed
  /-- The loads of signing keys do not differ at all. -/
  keys : i.keys = i'.keys
  /-- As many fetches go on at the same time. -/
  peak : i.peak = i'.peak
  /-- The passes end at the same instant, or neither does. -/
  elapsed : i.elapsed = i'.elapsed
  /-- As many faults are counted. -/
  faults : i.keyring.faults = i'.keyring.faults
  /-- As many keys are held. -/
  size : i.keyring.size = i'.keyring.size
  /-- The private keys correspond. -/
  privateKeys : List.Forall₂ R i.keyring.privateKeys.values i'.keyring.privateKeys.values

/-- What is logged of loads with reports alike is the same. -/
lemma loadRecords_of_alike (hR : RespectsEquality R) {r r' : Report PrivateKey}
    (h : r.Alike R r') (message counted : String) :
    loadRecords message counted r = loadRecords message counted r' := by
  have hsize : r.harvest.size = r'.harvest.size := h.trace.size hR
  have hfaults : r.harvest.faults = r'.harvest.faults := h.trace.faults
  have hreturned : r.returned = r'.returned := by rw [Report.returned, Report.returned, h.elapsed]
  rw [loadRecords, loadRecords, h.records, hsize, hfaults, hreturned]

/-- **Passes that differ in corresponding private keys only cannot be told apart**: all that is
logged, counted and measured is read off the reports of their loads. -/
theorem Alike.indistinguishable (h : Alike R i i') (hR : RespectsEquality R) :
    Indistinguishable R i i' := by
  obtain ⟨secrets, keys⟩ := i
  obtain ⟨secrets', keys'⟩ := i'
  obtain ⟨hsecrets, hkeys⟩ := h
  dsimp only at hsecrets hkeys
  subst hkeys
  cases hsecrets with
  | none => exact ⟨rfl, rfl, rfl, rfl, rfl, rfl, rfl, rfl, rfl, .nil⟩
  | @some r r' halike =>
    have hrecords := loadRecords_of_alike hR halike "Loaded private keys from secrets" "entries"
    have hfaults : r.harvest.faults = r'.harvest.faults := halike.trace.faults
    have hvalues := halike.trace.values hR
    refine ⟨?_, ?_, ?_, ?_, rfl, ?_, ?_, ?_, ?_, hvalues⟩
    · simp only [records, Option.map_some, hrecords]
    · simp only [counters, Option.map_some, halike.counters]
    · simp only [Option.map_some, halike.starts]
    · simp only [Option.map_some, halike.elapsed]
    · simp only [peak, Option.map_some, halike.peak]
    · simp only [elapsed, Option.map_some, halike.elapsed]
    · exact congrArg (· + (keyHarvest ⟨some r, keys⟩).faults) hfaults
    · exact congrArg (· + (keyHarvest ⟨some r, keys⟩).values.size) hvalues.length_eq

end Intake

namespace Source

variable {sel : Selection} {s s' : Source}

/-- The loads of secrets report alike, if they are made. -/
lemma alike_secrets (h : Rekeyed sel s s') (limits : Limits) :
    Option.Rel (Report.Alike (SameKey sel s s')) (s.intake limits sel).secrets
      (s'.intake limits sel).secrets := by
  rw [secrets_intake, secrets_intake]
  by_cases hsecrets : sel.secrets = true
  · rw [if_pos hsecrets, if_pos hsecrets]
    exact .some ((alike_privateKeyLoad h limits hsecrets).report (respectsEquality_sameKey h))
  · rw [if_neg hsecrets, if_neg hsecrets]
    exact .none

/-- **Passes over a source and one with other keys** differ in keys on corresponding lines only: the
signing keys are come to in both or in neither, and then their loads are the same. -/
lemma alike_intake (h : Rekeyed sel s s') (limits : Limits) :
    Intake.Alike (SameKey sel s s') (s.intake limits sel) (s'.intake limits sel) := by
  have hsecrets := alike_secrets h limits
  have hreturned {r r' : Option (Report PrivateKey)}
      (hr : Option.Rel (Report.Alike (SameKey sel s s')) r r') :
      r.map Report.returned = r'.map Report.returned := by
    cases hr with
    | none => rfl
    | some halike => exact congrArg (fun t : Option Nat => some t.isSome) halike.elapsed
  have hkey : s'.key = s.key := funext₂ h.key
  have hload : s'.signingKeyLoad limits sel.query = s.signingKeyLoad limits sel.query := by
    simp only [signingKeyLoad, keyLoad, hkey, h.listing]
  refine ⟨hsecrets, ?_⟩
  rw [keys_intake, keys_intake, hload, hreturned hsecrets]

/-- **Key material and credentials are not given away.** Passes over two sources that differ in the
keys on lines of secrets cannot be told apart, whether they return or not, and what is shown of the
private keys differs in the fingerprints only. What is shown of settings does not depend on the
credential.

**Proof sketch.** The loads of secrets start jobs alike, so they report alike, and the loads of
signing keys agree. -/
theorem indistinguishable_intake (h : Rekeyed sel s s') (limits : Limits) :
    Intake.Indistinguishable (SameKey sel s s') (s.intake limits sel) (s'.intake limits sel) ∧
      List.Forall₂ PrivateKey.ShownAlike (s.intake limits sel).keyring.privateKeys.values
        (s'.intake limits sel).keyring.privateKeys.values ∧
      ∀ (settings : Settings) (secretId : String),
        { settings with vault := { settings.vault with secretId := secretId } }.shown =
          settings.shown := by
  have hsame := (alike_intake h limits).indistinguishable (respectsEquality_sameKey h)
  refine ⟨hsame, hsame.privateKeys.imp ?_, fun _ _ => rfl⟩
  intro k k' hkey
  exact PrivateKey.shownAlike_of_source hkey.source

/-- A source of two secrets with three keys between them, a secret that holds none, and a secret
that is listed but not chosen, since it has no tags. -/
def lodged (first second third stray : String) : Source where
  listing
    | .secret => .ok
        [{ delay := 1, content := .ok [tagged "alpha", tagged "bravo"] },
          { content := .ok [tagged "carol", .readable { name := "echo" }] }]
    | .key => .ok [{ content := .ok [tagged "delta"] }]
  secret
    | "alpha" => .ends 3 (.value (first ++ "\n" ++ second))
    | "bravo" => .ends 1 (.value third)
    | "carol" => .ends 2 (.value "none")
    | _ => .ends 0 (.value stray)
  key name _ := .ends 2 (.value { mount := "transit", name, id := "signer" })
where
  tagged (name : String) : ListingEntry :=
    .readable { name, tags := some (.ofPairs [("team", "pay")]) }

/-- The selection of what is tagged, of either kind. -/
def ofTeam : Selection := { query := .ofPairs [("team", "pay")], keys := true }

/-- Three keys, two of which are equal, are replaced by others. Either pass holds two private keys
and a signing key and counts one fault. -/
theorem indistinguishable_lodged :
    Intake.Indistinguishable
        (SameKey ofTeam (lodged "01" "0x02" "01" "03") (lodged "aa" "bb" "aa" "none"))
        ((lodged "01" "0x02" "01" "03").intake {} ofTeam)
        ((lodged "aa" "bb" "aa" "none").intake {} ofTeam) ∧
      ((lodged "01" "0x02" "01" "03").intake {} ofTeam).keyring.faults = 1 ∧
      ((lodged "01" "0x02" "01" "03").intake {} ofTeam).keyring.size = 3 := by
  have hrekeyed : Rekeyed ofTeam (lodged "01" "0x02" "01" "03") (lodged "aa" "bb" "aa" "none") := by
    refine ⟨fun kind => by cases kind <;> rfl, fun _ _ => rfl, ?_, by decide +kernel⟩
    have halpha : ((lodged "01" "0x02" "01" "03").secret "alpha").Rekeyed
        ((lodged "aa" "bb" "aa" "none").secret "alpha") :=
      ⟨3, _, _, rfl, rfl, by decide, by decide, by decide⟩
    have hbravo : ((lodged "01" "0x02" "01" "03").secret "bravo").Rekeyed
        ((lodged "aa" "bb" "aa" "none").secret "bravo") :=
      ⟨1, _, _, rfl, rfl, by decide, by decide, by decide⟩
    exact List.forall_mem_cons.mpr ⟨.inr halpha, List.forall_mem_cons.mpr ⟨.inr hbravo,
      List.forall_mem_cons.mpr ⟨.inl rfl, fun _ hitem => absurd hitem List.not_mem_nil⟩⟩⟩
  exact ⟨(indistinguishable_intake hrekeyed {}).1, by decide +kernel, by decide +kernel⟩

end Source

end KeyIntake
