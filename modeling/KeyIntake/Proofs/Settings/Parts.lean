import KeyIntake.Proofs.Tree.Record
import KeyIntake.Settings
/-!
# The parts of the settings

What the settings of a run are made of: two names and four sections, and the parts of each section.
All the shapes are lawful, so that what is known of reading records holds of them.

## Main definitions

* `Settings.parts` and the parts of its sections.

## Main results

* `Settings.lawful` and the same of its sections — the fields of the shapes are those of the parts.
* `TagQuery.ofTree_eq_ok_iff` — which query is read from a tree.
-/

set_option relaxedAutoImplicit false
set_option autoImplicit false

namespace KeyIntake

/-! ### Sections -/

/-- The parts of the limits of loads. -/
def Limits.parts : List (Part Limits) :=
  [⟨Nat, "concurrency", Tree.asWord .size, Limits.concurrency,
      fun n l => { l with concurrency := n }⟩,
    ⟨Option Nat, "fetch_timeout_ms", Tree.asWord? .millis, Limits.timeoutMillis,
      fun n l => { l with timeoutMillis := n }⟩]

/-- The parts of the settings of the vault. -/
def VaultSettings.parts : List (Part VaultSettings) :=
  [⟨String, "endpoint", Tree.asText, VaultSettings.endpoint, fun x s => { s with endpoint := x }⟩,
    ⟨String, "role_id", Tree.asText, VaultSettings.roleId, fun x s => { s with roleId := x }⟩,
    ⟨String, "secret_id", Tree.asText, VaultSettings.secretId, fun x s => { s with secretId := x }⟩,
    ⟨String, "approle_mount", Tree.asText, VaultSettings.loginMount,
      fun x s => { s with loginMount := x }⟩,
    ⟨String, "kv_mount", Tree.asText, VaultSettings.secretMount,
      fun x s => { s with secretMount := x }⟩,
    ⟨String, "kv_prefix", Tree.asText, VaultSettings.folder, fun x s => { s with folder := x }⟩,
    ⟨String, "value_field", Tree.asText, VaultSettings.valueField,
      fun x s => { s with valueField := x }⟩,
    ⟨String, "transit_mount", Tree.asText, VaultSettings.keyMount,
      fun x s => { s with keyMount := x }⟩,
    ⟨Nat, "page_size", Tree.asWord .size, VaultSettings.pageSize,
      fun n s => { s with pageSize := n }⟩]

/-- The part of a selection that is a table itself. -/
def Selection.queryPart : Part Selection :=
  ⟨TagQuery, "tags", TagQuery.ofTree, Selection.query, fun q s => { s with query := q }⟩

/-- The parts of a selection that are truth values. -/
def Selection.flags : List (Part Selection) :=
  [⟨Bool, "secrets", Tree.asBool, Selection.secrets, fun b s => { s with secrets := b }⟩,
    ⟨Bool, "keys", Tree.asBool, Selection.keys, fun b s => { s with keys := b }⟩,
    ⟨Bool, "fail_on_error", Tree.asBool, Selection.failOnFaults,
      fun b s => { s with failOnFaults := b }⟩]

/-- The parts of a selection. -/
def Selection.parts : List (Part Selection) := queryPart :: flags

/-- The parts of the telemetry. -/
def Telemetry.parts : List (Part Telemetry) :=
  [⟨String, "log_level", Tree.asText, Telemetry.logLevel, fun x t => { t with logLevel := x }⟩,
    ⟨Bool, "metrics", Tree.asBool, Telemetry.metrics, fun b t => { t with metrics := b }⟩]

theorem Limits.lawful : Limits.shape.Lawful Limits.parts where
  fields_eq := rfl
  nodup := by decide
  required := by simp [shape]
  get_put := by simp [parts]
  get_put_of_ne := by simp [parts]
  ext s s' h := by
    cases s
    cases s'
    simpa [parts] using h

theorem VaultSettings.lawful : VaultSettings.shape.Lawful VaultSettings.parts where
  fields_eq := rfl
  nodup := by decide
  required := by simp [shape, parts]
  get_put := by simp [parts]
  get_put_of_ne := by simp [parts]
  ext s s' h := by
    cases s
    cases s'
    simpa [parts] using h

theorem Selection.lawful : Selection.shape.Lawful Selection.parts where
  fields_eq := rfl
  nodup := by decide
  required := by simp [shape]
  get_put := by simp [parts, queryPart, flags]
  get_put_of_ne := by simp [parts, queryPart, flags]
  ext s s' h := by
    cases s
    cases s'
    simpa [parts, queryPart, flags] using h

theorem Telemetry.lawful : Telemetry.shape.Lawful Telemetry.parts where
  fields_eq := rfl
  nodup := by decide
  required := by simp [shape]
  get_put := by simp [parts]
  get_put_of_ne := by simp [parts]
  ext s s' h := by
    cases s
    cases s'
    simpa [parts] using h

/-! ### The whole -/

namespace Settings

/-- The parts of the settings of a run. -/
def parts (strict : Bool) : List (Part Settings) :=
  [⟨String, "app_name", Tree.asText, Settings.name, fun x s => { s with name := x }⟩,
    ⟨String, "app_env", Tree.asText, Settings.environment, fun x s => { s with environment := x }⟩,
    ⟨VaultSettings, "vault", VaultSettings.shape.read strict, Settings.vault,
      fun v s => { s with vault := v }⟩,
    ⟨Limits, "loader", Limits.shape.read strict, Settings.limits,
      fun l s => { s with limits := l }⟩,
    ⟨Selection, "selection", Selection.shape.read strict, Settings.selection,
      fun x s => { s with selection := x }⟩,
    ⟨Telemetry, "telemetry", Telemetry.shape.read strict, Settings.telemetry,
      fun t s => { s with telemetry := t }⟩]

theorem lawful (strict : Bool) : (Settings.shape strict).Lawful (Settings.parts strict) where
  fields_eq := rfl
  nodup := by simp [parts]
  required := by simp [shape, parts]
  get_put := by simp [parts]
  get_put_of_ne := by simp [parts]
  ext s s' h := by
    cases s
    cases s'
    simpa [parts] using h

end Settings

/-! ### Queries -/

/-- **Which query is read from a tree**: that of the texts in a table. -/
theorem TagQuery.ofTree_eq_ok_iff {t : Tree} (ht : t.Sorted) (q : TagQuery) :
    TagQuery.ofTree t = .ok q ↔ ∃ fields, t = .table fields ∧
      ∀ k, Entries.get? fields k = (q.required.get? k).map Tree.text := by
  rw [← Tree.asTags_eq_ok_iff ht, TagQuery.ofTree]
  cases t.asTags with
  | error m => simp [Except.map]
  | ok d =>
    obtain ⟨required⟩ := q
    simp [Except.map]

end KeyIntake
