import KeyIntake.Proofs.Tree.Record
import KeyIntake.Proofs.Vault.Listing
/-!
# What the value of a secret depends on

The value of a secret is one of its fields, but all the fields are read before it is picked. So it
depends on that field alone as long as every other one is a text as well; a field that is none keeps
the value from being read, whether its own field is there or not.

## Main definitions

* `Client.secretAnswer` — what the vault says that a secret holds.
* `Client.Keeps` — the vault keeps a secret with some fields under a path.
* `Client.AreTexts` — all fields of a secret are texts.
* `Client.ReadsValue` — what reading the value of a secret answers.

## Main results

* `Client.answer_secretValue_eq_ok_iff` — a value is read iff it is among what a secret holds.
* `Client.readsValue_of_keeps` — the value of a secret that the vault keeps.
* `Client.value_depends_on_others` — fields that are no texts have a say in it.
-/

set_option relaxedAutoImplicit false
set_option autoImplicit false

namespace KeyIntake

/-- An envelope holds the data that are put into it. -/
lemma Reply.data_envelope {data : Tree} (h : data.isNull = false) :
    (Reply.envelope data).data = .ok data := by
  simpa +decide [Reply.envelope, Reply.data, Reply.envelope?, Reply.isEnvelope, Reply.isGrant,
    Tree.tableOf, Tree.field, Tree.field?, Entries.insertAll, Entries.get?_insert, Entries.get?,
    Tree.text?, Tree.asText, Tree.word?, Tree.asWord, Tree.bool?, Tree.asBool, Tree.isNull,
    Except.toOption, bind, Except.bind] using h

namespace Client

variable (c : Client) (n : Network) (path : String)

/-! ### Secrets -/

/-- What the vault says that a secret holds. -/
def secretAnswer : Exchange.Result (Dictionary String) :=
  c.told n Exchange.Content.fields .get (secretResource c.settings path)

/-- The vault keeps a secret with some fields under a path. -/
def Keeps (fields : Dictionary Tree) : Prop :=
  ∃ d, (n (c.request .get (secretResource c.settings path) none)).data = .ok d ∧
    d.field? "data" = some (.table fields.entries)

/-- All fields of a secret are texts. -/
def AreTexts (fields : Dictionary Tree) : Prop :=
  ∀ key t, fields.get? key = some t → ∃ s, t = .text s

variable {c n path} {fields : Dictionary Tree}

/-- Secrets made of texts are read. -/
lemma secretAnswer_of_areTexts (h : c.Keeps n path fields) (htexts : AreTexts fields) :
    ∃ d, c.secretAnswer n path = .ok d ∧
      ∀ key, fields.get? key = (d.get? key).map Tree.text := by
  obtain ⟨t, hdata, hfield⟩ := h
  obtain ⟨d, hd⟩ := (Tree.exists_asTags_eq_ok_iff fields.sorted).mpr htexts
  refine ⟨d, ?_, (Tree.asTags_table_eq_ok_iff fields.sorted d).mp hd⟩
  rw [secretAnswer, told, hdata]
  show Exchange.Content.fields t = .ok d
  rw [Exchange.Content.fields, hfield]
  dsimp only
  rw [Tree.texts?, hd]
  rfl

/-- Other ones are not. -/
lemma secretAnswer_of_not_areTexts (h : c.Keeps n path fields) (htexts : ¬ AreTexts fields) :
    c.secretAnswer n path = .error .badValue := by
  obtain ⟨t, hdata, hfield⟩ := h
  rw [secretAnswer, told, hdata]
  show Exchange.Content.fields t = .error .badValue
  rw [Exchange.Content.fields, hfield]
  dsimp only
  rw [Tree.texts?]
  cases hread : (Tree.table fields.entries).asTags with
  | error m => rfl
  | ok d => exact absurd ((Tree.exists_asTags_eq_ok_iff fields.sorted).mp ⟨d, hread⟩) htexts

/-! ### Values -/

/-- The value of a secret is picked from the fields that one exchange reads. -/
lemma answer_secretValue_of_exchange : (c.secretValue path).answer n =
    match (c.exchange ("Failed to read secret at path: " ++ path) Exchange.Content.fields .get
      (secretResource c.settings path) none).answer n with
    | .ok fields => pick path c.settings.valueField fields
    | .error fault => .error fault := by
  simp only [secretValue, field, secretFields, Dialogue.andThen, Dialogue.bind_eq,
    Dialogue.answer_bind, Dialogue.pure_eq]
  cases (c.exchange ("Failed to read secret at path: " ++ path) Exchange.Content.fields .get
    (secretResource c.settings path) none).answer n with
  | error fault => rfl
  | ok fields =>
    dsimp only
    rw [Dialogue.answer_bind]
    rfl

/-- So it is picked from what the vault says that the secret holds. -/
lemma answer_secretValue : (c.secretValue path).answer n =
    match c.secretAnswer n path with
    | .ok fields => pick path c.settings.valueField fields
    | .error f => .error (f.fault ("Failed to read secret at path: " ++ path)) := by
  rw [answer_secretValue_of_exchange, answer_exchange, ← secretAnswer]
  cases c.secretAnswer n path with
  | ok fields => rw [Except.mapError]
  | error f => rw [Except.mapError]

/-- **What reading the value of a secret answers.** -/
structure ReadsValue (c : Client) (n : Network) (path : String) (fields : Dictionary Tree) :
    Prop where
  /-- A value is read iff its field is that text and all other fields are texts. -/
  ok_iff : ∀ v, (c.secretValue path).answer n = .ok v ↔
    fields.get? c.settings.valueField = some (.text v) ∧ AreTexts fields
  /-- A value is not found iff its field is not there and all other fields are texts. -/
  notFound_iff : (∃ fault, (c.secretValue path).answer n = .error fault ∧
      fault.isNotFound = true) ↔
    fields.get? c.settings.valueField = none ∧ AreTexts fields
  /-- If some field is no text, it does not matter which one: the secret cannot be read. -/
  failed : ¬ AreTexts fields → (c.secretValue path).answer n =
    .error (Exchange.Failure.badValue.fault ("Failed to read secret at path: " ++ path))
  /-- Of secrets made of texts only the field of the value matters. -/
  agrees : ∀ (n' : Network) (fields' : Dictionary Tree), c.Keeps n' path fields' →
    AreTexts fields → AreTexts fields' →
      fields'.get? c.settings.valueField = fields.get? c.settings.valueField →
        (c.secretValue path).answer n' = (c.secretValue path).answer n

/-- What is read from a secret made of texts. -/
lemma answer_secretValue_of_areTexts (h : c.Keeps n path fields) (htexts : AreTexts fields) :
    (c.secretValue path).answer n =
      match fields.get? c.settings.valueField with
      | some (.text v) => .ok v
      | _ => .error ⟨.notFound,
          "Field '" ++ c.settings.valueField ++ "' not found in secret at path: " ++ path⟩ := by
  obtain ⟨d, hd, hfields⟩ := secretAnswer_of_areTexts h htexts
  rw [answer_secretValue, hd, hfields]
  dsimp only
  rw [pick]
  cases d.get? c.settings.valueField <;> rfl

/-- **The value of a secret that the vault keeps** depends on its own field, as long as all other
ones are texts. -/
theorem readsValue_of_keeps (h : c.Keeps n path fields) : c.ReadsValue n path fields := by
  have hfailed : ¬ AreTexts fields → (c.secretValue path).answer n =
      .error (Exchange.Failure.badValue.fault ("Failed to read secret at path: " ++ path)) := by
    intro htexts
    rw [answer_secretValue, secretAnswer_of_not_areTexts h htexts]
  refine ⟨fun v => ?_, ?_, hfailed, fun n' fields' h' htexts htexts' hagree => ?_⟩
  · by_cases htexts : AreTexts fields
    · rw [answer_secretValue_of_areTexts h htexts, and_iff_left htexts]
      cases hget : fields.get? c.settings.valueField with
      | none => simp
      | some t =>
        obtain ⟨s, rfl⟩ := htexts _ t hget
        simp
    · rw [hfailed htexts]
      exact iff_of_false (by simp) fun hv => htexts hv.2
  · by_cases htexts : AreTexts fields
    · rw [answer_secretValue_of_areTexts h htexts, and_iff_left htexts]
      cases hget : fields.get? c.settings.valueField with
      | none => exact iff_of_true ⟨_, rfl, rfl⟩ rfl
      | some t =>
        obtain ⟨s, rfl⟩ := htexts _ t hget
        simp
    · rw [hfailed htexts]
      refine iff_of_false ?_ fun hnone => htexts hnone.2
      rintro ⟨fault, heq, hfault⟩
      cases heq
      have hplain : Exchange.Failure.IsPlain .badValue := trivial
      rw [Exchange.Failure.isNotFound_fault_iff hplain] at hfault
      simp at hfault
  · rw [answer_secretValue_of_areTexts h' htexts', answer_secretValue_of_areTexts h htexts, hagree]

/-- A vault that keeps one secret with some fields. -/
def keeper (fields : List (String × Tree)) : Network := .scripted
  [("http://vault/v1/secret/data/key", .envelope (.tableOf [("data", .tableOf fields)]))]

/-- A keeper keeps that secret. -/
lemma keeps_keeper (fields : List (String × Tree)) :
    sample.Keeps (keeper fields) "key" (.ofPairs fields) := by
  refine ⟨.tableOf [("data", .tableOf fields)], ?_, rfl⟩
  have hreply : keeper fields (sample.request .get (secretResource sample.settings "key") none) =
      .envelope (.tableOf [("data", .tableOf fields)]) := rfl
  rw [hreply, Reply.data_envelope rfl]

/-- A secret with two texts, one of which is its value. -/
theorem readsValue_keeper :
    sample.Keeps (keeper [("value", .text "0x01"), ("owner", .text "ops")]) "key"
        (.ofPairs [("value", .text "0x01"), ("owner", .text "ops")]) ∧
      (sample.secretValue "key").answer
        (keeper [("value", .text "0x01"), ("owner", .text "ops")]) = .ok "0x01" := by
  have hkeeps := keeps_keeper [("value", .text "0x01"), ("owner", .text "ops")]
  have htexts : AreTexts (.ofPairs [("value", .text "0x01"), ("owner", .text "ops")]) := by
    intro key t ht
    rcases Entries.mem_insert (Entries.mem_of_get?_eq_some ht) with hpair | hmem
    · exact ⟨_, (Prod.mk.inj hpair).2⟩
    · exact ⟨_, (Prod.mk.inj (List.mem_singleton.mp hmem)).2⟩
  exact ⟨hkeeps, ((readsValue_of_keeps hkeeps).ok_iff "0x01").mpr ⟨rfl, htexts⟩⟩

/-- **Fields that are no texts have a say in the value.** With a number among its fields a secret
whose value is there cannot be read, and of one whose value is not there this is not found out. -/
theorem value_depends_on_others :
    (sample.secretValue "key").answer (keeper [("value", .text "0x01")]) = .ok "0x01" ∧
      (sample.secretValue "key").answer
          (keeper [("value", .text "0x01"), ("ttl", .unsigned 5)]) =
        .error ⟨.externalService,
          "Failed to read secret at path: key: Error parsing value into JSON"⟩ ∧
      (sample.secretValue "key").answer (keeper [("ttl", .unsigned 5)]) =
        .error ⟨.externalService,
          "Failed to read secret at path: key: Error parsing value into JSON"⟩ := by
  refine ⟨?_, ?_, ?_⟩ <;> decide +kernel

end Client

end KeyIntake
