import KeyIntake.Proofs.Settings.Parts
import KeyIntake.Proofs.Tree.Declared
/-!
# Settings as they are declared

What the settings of a run are when nothing is given, which members they have and of which types.
The shapes that settings are read with have defaults of their own. They follow the declarations
nevertheless: whatever part of the settings a JSON value gives, at whatever depth, this part and
nothing else is replaced in the settings that are made without being read.

## Main definitions

* `Settings.declared` and the same of the sections — the members and their types.
* `Settings.ReadAsDeclared` — settings and their sections are read as they are declared.

## Main results

* `Settings.follows` and the same of the sections — the shapes follow the declarations.
* `Settings.readAsDeclared` — partial settings replace what they give in the standard ones.
-/

set_option relaxedAutoImplicit false
set_option autoImplicit false

namespace KeyIntake

/-! ### Declarations -/

/-- A query, which is a table of texts. -/
def TagQuery.declared : Declared TagQuery where
  Has t := ∃ fields, t = .table fields ∧ ∀ p ∈ fields, Declared.text.Has p.2
  value
    | .table fields => .ofPairs (fields.map fun p => (p.1, Declared.text.value p.2))
    | _ => {}

/-- The limits of loads. -/
def Limits.declared : Declaration Limits where
  standard := {}
  members :=
    [⟨Nat, "concurrency", .word, fun n l => { l with concurrency := n }⟩,
      ⟨Option Nat, "fetch_timeout_ms", .optionalWord, fun n l => { l with timeoutMillis := n }⟩]

/-- The settings of the vault. The endpoint, which has to be given, has a placeholder in the standard
ones. -/
def VaultSettings.declared : Declaration VaultSettings where
  standard := {}
  required := ["endpoint"]
  members :=
    [⟨String, "endpoint", .text, fun x s => { s with endpoint := x }⟩,
      ⟨String, "role_id", .text, fun x s => { s with roleId := x }⟩,
      ⟨String, "secret_id", .text, fun x s => { s with secretId := x }⟩,
      ⟨String, "approle_mount", .text, fun x s => { s with loginMount := x }⟩,
      ⟨String, "kv_mount", .text, fun x s => { s with secretMount := x }⟩,
      ⟨String, "kv_prefix", .text, fun x s => { s with folder := x }⟩,
      ⟨String, "value_field", .text, fun x s => { s with valueField := x }⟩,
      ⟨String, "transit_mount", .text, fun x s => { s with keyMount := x }⟩,
      ⟨Nat, "page_size", .word, fun n s => { s with pageSize := n }⟩]

/-- A selection. -/
def Selection.declared : Declaration Selection where
  standard := {}
  members :=
    [⟨TagQuery, "tags", TagQuery.declared, fun q s => { s with query := q }⟩,
      ⟨Bool, "secrets", .flag, fun b s => { s with secrets := b }⟩,
      ⟨Bool, "keys", .flag, fun b s => { s with keys := b }⟩,
      ⟨Bool, "fail_on_error", .flag, fun b s => { s with failOnFaults := b }⟩]

/-- The telemetry. -/
def Telemetry.declared : Declaration Telemetry where
  standard := {}
  members :=
    [⟨String, "log_level", .text, fun x t => { t with logLevel := x }⟩,
      ⟨Bool, "metrics", .flag, fun b t => { t with metrics := b }⟩]

/-- The settings of a run. The name and the vault, which have to be given, have placeholders in the
standard ones. -/
def Settings.declared : Declaration Settings where
  standard := { name := "" }
  required := ["app_name", "vault"]
  members :=
    [⟨String, "app_name", .text, fun x s => { s with name := x }⟩,
      ⟨String, "app_env", .text, fun x s => { s with environment := x }⟩,
      ⟨VaultSettings, "vault", VaultSettings.declared.type, fun v s => { s with vault := v }⟩,
      ⟨Limits, "loader", Limits.declared.type, fun l s => { s with limits := l }⟩,
      ⟨Selection, "selection", Selection.declared.type, fun x s => { s with selection := x }⟩,
      ⟨Telemetry, "telemetry", Telemetry.declared.type, fun t s => { s with telemetry := t }⟩]

/-- **Settings are read as they are declared**, and so is each of their sections on its own. -/
structure Settings.ReadAsDeclared : Prop where
  /-- What a JSON text holds is among the values that this is about. -/
  values : ∀ (text : String) (t : Tree), Json.read? text = some t → t.IsJson
  limits : Limits.declared.KeptBy Limits.shape
  vault : VaultSettings.declared.KeptBy VaultSettings.shape
  selection : Selection.declared.KeptBy Selection.shape
  telemetry : Telemetry.declared.KeptBy Telemetry.shape
  settings : Settings.declared.KeptBy (Settings.shape true)
  /-- The settings of the vault are those that its endpoint alone makes, with the members replaced
  that are given. -/
  built : ∀ t : Tree, VaultSettings.declared.type.Has t →
    VaultSettings.declared.type.value t = Member.replaceAll t 0 VaultSettings.declared.members
      { endpoint := (VaultSettings.declared.type.value t).endpoint }

/-! ### Queries -/

namespace TagQuery

variable {fields : List (String × Tree)}

/-- The texts of a table are those of its query. -/
lemma get?_declared_value (hkeys : Entries.Sorted fields)
    (htexts : ∀ p ∈ fields, Declared.text.Has p.2) (key : String) :
    ((declared.value (.table fields)).required.get? key).map Tree.text =
      Entries.get? fields key := by
  have hnodup : ((fields.map fun p => (p.1, Declared.text.value p.2)).map Prod.fst).Nodup := by
    rw [List.map_map]
    exact hkeys.nodup_keys
  have hget : (declared.value (.table fields)).required.get? key =
      Dictionary.lastValue? (fields.map fun p => (p.1, Declared.text.value p.2)) key :=
    Dictionary.get?_ofPairs _ key
  refine Option.ext fun t => ?_
  rw [hget, Option.map_eq_some_iff, ← hkeys.mem_iff]
  simp only [Dictionary.lastValue?_eq_some_iff hnodup, List.mem_map, Prod.mk.injEq]
  constructor
  · rintro ⟨x, ⟨⟨k, u⟩, hmem, rfl, rfl⟩, rfl⟩
    obtain ⟨x, rfl⟩ : ∃ x, u = .text x := htexts _ hmem
    exact hmem
  · intro hmem
    obtain ⟨x, rfl⟩ : ∃ x, t = .text x := htexts _ hmem
    exact ⟨x, ⟨_, hmem, rfl, rfl⟩, rfl⟩

/-- **Queries are read as they are declared.**

**Proof sketch.** A query that is read from a table has the texts of its fields, so that each field
is a text; and queries with the same texts are equal. -/
theorem declared_readBy : declared.ReadBy ofTree := by
  intro t ht q
  rw [ofTree_eq_ok_iff ht.sorted]
  constructor
  · rintro ⟨fields, rfl, hget⟩
    have hkeys := ht.sorted.keys
    have htexts : ∀ p ∈ fields, Declared.text.Has p.2 := by
      rintro ⟨key, u⟩ hmem
      rw [hkeys.mem_iff, hget, Option.map_eq_some_iff] at hmem
      obtain ⟨x, -, rfl⟩ := hmem
      exact ⟨x, rfl⟩
    refine ⟨⟨fields, rfl, htexts⟩, ?_⟩
    have hrequired : (declared.value (.table fields)).required = q.required := by
      refine Dictionary.ext_get? fun key => ?_
      refine Option.map_injective (fun x y h => Tree.text.inj h) ?_
      rw [get?_declared_value hkeys htexts, hget]
    exact congrArg mk hrequired
  · rintro ⟨⟨fields, rfl, htexts⟩, rfl⟩
    exact ⟨fields, rfl, fun key => (get?_declared_value ht.sorted.keys htexts key).symm⟩

end TagQuery

/-! ### Shapes -/

open Declared Part.ReadAs

theorem Limits.follows : shape.Follows parts declared where
  lawful := lawful
  members := .cons (.intro _ _ _ (word_readBy _)) <|
    .cons (.intro _ _ _ (optionalWord_readBy _)) .nil
  required := rfl
  standard := by simp [parts, shape, declared]

theorem VaultSettings.follows : shape.Follows parts declared where
  lawful := lawful
  members := .cons (.intro _ _ _ text_readBy) <| .cons (.intro _ _ _ text_readBy) <|
    .cons (.intro _ _ _ text_readBy) <| .cons (.intro _ _ _ text_readBy) <|
    .cons (.intro _ _ _ text_readBy) <| .cons (.intro _ _ _ text_readBy) <|
    .cons (.intro _ _ _ text_readBy) <| .cons (.intro _ _ _ text_readBy) <|
    .cons (.intro _ _ _ (word_readBy _)) .nil
  required := rfl
  standard := by simp [parts, shape, declared]

/-- Of the standard settings of the vault the endpoint does not matter, as it is always given. -/
lemma VaultSettings.value_declared {t : Tree} (h : declared.type.Has t) (endpoint : String) :
    declared.type.value t = Member.replaceAll t 0 declared.members { endpoint } := by
  have hgiven := h.2 0 _ rfl
  show Member.replaceAll t 0 declared.members declared.standard = _
  simp only [declared, Member.replaceAll]
  cases hpart : t.part? ⟨"endpoint", 0⟩ with
  | none =>
    rw [hpart] at hgiven
    exact absurd List.mem_cons_self hgiven
  | some u => rfl

theorem Selection.follows : shape.Follows parts declared where
  lawful := lawful
  members := .cons (.intro _ _ _ TagQuery.declared_readBy) <| .cons (.intro _ _ _ flag_readBy) <|
    .cons (.intro _ _ _ flag_readBy) <| .cons (.intro _ _ _ flag_readBy) .nil
  required := rfl
  standard := by simp [parts, queryPart, flags, shape, declared]

theorem Telemetry.follows : shape.Follows parts declared where
  lawful := lawful
  members := .cons (.intro _ _ _ text_readBy) <| .cons (.intro _ _ _ flag_readBy) .nil
  required := rfl
  standard := by simp [parts, shape, declared]

theorem Settings.follows : (shape true).Follows (parts true) declared where
  lawful := lawful true
  members := .cons (.intro _ _ _ text_readBy) <| .cons (.intro _ _ _ text_readBy) <|
    .cons (.intro _ _ _ VaultSettings.follows.readBy) <|
    .cons (.intro _ _ _ Limits.follows.readBy) <|
    .cons (.intro _ _ _ Selection.follows.readBy) <|
    .cons (.intro _ _ _ Telemetry.follows.readBy) .nil
  required := rfl
  standard := by simp [parts, shape, declared]

/-- **Partial settings replace what they give in the standard ones**, and nothing else. -/
theorem Settings.readAsDeclared : ReadAsDeclared where
  values _ _ := Json.isJson_of_read?
  limits := Limits.follows.keptBy
  vault := VaultSettings.follows.keptBy
  selection := Selection.follows.keptBy
  telemetry := Telemetry.follows.keptBy
  settings := Settings.follows.keptBy
  built _ ht := VaultSettings.value_declared ht _

/-- Lists and tables may be mixed. -/
example :
    Settings.ofTree true (.table
        [("app_name", .text "intake"), ("loader", .list [.unsigned 2]),
          ("vault", .list [.text "http://vault:8200", .text "reader"])]) =
      .ok
        { name := "intake", limits := { concurrency := 2 }
          vault := { endpoint := "http://vault:8200", roleId := "reader" } } := rfl

end KeyIntake
