import KeyIntake.Keyring
import KeyIntake.Tree.Reading
import KeyIntake.Vault.Settings
/-!
# Settings

The settings of a run: what the program is called and where it runs, the vault, the limits of loads,
the selection of items, and what is logged and measured.

## Main definitions

* `Settings`, `Telemetry` — the settings.
* `Settings.shape` and the shapes of its parts — how settings are read from trees.
* `Settings.Defect`, `Settings.check` — values that are readable but make no sense.
* `Settings.shown` — the settings as shown in messages.
-/

set_option autoImplicit false

namespace KeyIntake

/-- What is logged, and whether counters are kept. -/
structure Telemetry where
  logLevel : String := "info"
  metrics : Bool := false
  deriving DecidableEq, Repr

/-- The settings of a run. -/
structure Settings where
  name : String
  environment : String := "development"
  vault : VaultSettings := {}
  limits : Limits := {}
  selection : Selection := {}
  telemetry : Telemetry := {}
  deriving DecidableEq

/-! ### Reading

Each shape has defaults of its own for the fields that are not given, besides those that the record
has where it is made without being read. A field that has to be given has a placeholder there. -/

/-- A query, which is written as a table of texts. -/
def TagQuery.ofTree (t : Tree) : Reading TagQuery := t.asTags.map TagQuery.mk

/-- The fields of the limits of loads. -/
def Limits.shape : Shape Limits where
  name := "LoaderConfig"
  defaults := { concurrency := 8, timeoutMillis := none }
  fields :=
    [.of "concurrency" (Tree.asWord .size) fun n l => { l with concurrency := n },
      .of "fetch_timeout_ms" (Tree.asWord? .millis) fun n l => { l with timeoutMillis := n }]

/-- The fields of the settings of the vault. -/
def VaultSettings.shape : Shape VaultSettings where
  name := "VaultConfig"
  defaults :=
    { endpoint := "", roleId := "", secretId := "", loginMount := "approle", secretMount := "secret"
      folder := "", valueField := "value", keyMount := "transit", pageSize := 25 }
  required := ["endpoint"]
  fields :=
    [.of "endpoint" Tree.asText fun x s => { s with endpoint := x },
      .of "role_id" Tree.asText fun x s => { s with roleId := x },
      .of "secret_id" Tree.asText fun x s => { s with secretId := x },
      .of "approle_mount" Tree.asText fun x s => { s with loginMount := x },
      .of "kv_mount" Tree.asText fun x s => { s with secretMount := x },
      .of "kv_prefix" Tree.asText fun x s => { s with folder := x },
      .of "value_field" Tree.asText fun x s => { s with valueField := x },
      .of "transit_mount" Tree.asText fun x s => { s with keyMount := x },
      .of "page_size" (Tree.asWord .size) fun n s => { s with pageSize := n }]

/-- The fields of a selection. -/
def Selection.shape : Shape Selection where
  name := "SelectionConfig"
  defaults := { query := {}, secrets := true, keys := false, failOnFaults := false }
  fields :=
    [.of "tags" TagQuery.ofTree fun q s => { s with query := q },
      .of "secrets" Tree.asBool fun b s => { s with secrets := b },
      .of "keys" Tree.asBool fun b s => { s with keys := b },
      .of "fail_on_error" Tree.asBool fun b s => { s with failOnFaults := b }]

/-- The fields of the telemetry. -/
def Telemetry.shape : Shape Telemetry where
  name := "TelemetryConfig"
  defaults := { logLevel := "info", metrics := false }
  fields :=
    [.of "log_level" Tree.asText fun x t => { t with logLevel := x },
      .of "metrics" Tree.asBool fun b t => { t with metrics := b }]

/-- The fields of the settings of a run. -/
def Settings.shape (strict : Bool) : Shape Settings where
  name := "AppConfig"
  defaults :=
    { name := "", environment := "development", vault := VaultSettings.shape.defaults, limits := {}
      selection := {}, telemetry := {} }
  required := ["app_name", "vault"]
  fields :=
    [.of "app_name" Tree.asText fun x s => { s with name := x },
      .of "app_env" Tree.asText fun x s => { s with environment := x },
      .of "vault" (VaultSettings.shape.read strict) fun v s => { s with vault := v },
      .of "loader" (Limits.shape.read strict) fun l s => { s with limits := l },
      .of "selection" (Selection.shape.read strict) fun x s => { s with selection := x },
      .of "telemetry" (Telemetry.shape.read strict) fun t s => { s with telemetry := t }]

/-- The settings that a tree holds. -/
def Settings.ofTree (strict : Bool) (t : Tree) : Reading Settings :=
  (Settings.shape strict).read strict t

/-! ### Sense -/

/-- Why readable settings make no sense. -/
inductive Settings.Defect where
  | blankEndpoint
  | noWorkers
  | emptyPages
  | nothingSelected
  deriving DecidableEq, Repr

/-- The text of a defect. -/
def Settings.Defect.message : Settings.Defect → String
  | blankEndpoint => "vault.endpoint must not be empty"
  | noWorkers => "loader.concurrency must be at least 1"
  | emptyPages => "vault.page_size must be at least 1"
  | nothingSelected => "selection must enable secrets, keys or both"

namespace Settings

/-- The first defect of settings. -/
def defect? (s : Settings) : Option Defect :=
  if (Text.trimmed s.vault.endpoint).isEmpty then some .blankEndpoint
  else if s.limits.concurrency = 0 then some .noWorkers
  else if s.vault.pageSize = 0 then some .emptyPages
  else if !s.selection.secrets && !s.selection.keys then some .nothingSelected
  else none

/-- The run is one in production. -/
def isProduction (s : Settings) : Bool := s.environment == "production"

end Settings

/-! ### Showing -/

/-- A truth value as shown in messages. -/
def shownBool (b : Bool) : String := if b then "true" else "false"

/-- A query as shown in messages. -/
def TagQuery.shown (q : TagQuery) : String :=
  "TagFilter(\x7b" ++
    ", ".intercalate (q.required.entries.map fun p => Quoted.shown p.1 ++ ": " ++ Quoted.shown p.2)
    ++ "\x7d)"

/-- Limits as shown in messages. -/
def Limits.shown (l : Limits) : String :=
  Quoted.shownRecord "LoaderConfig"
    [("concurrency", Text.decimal l.concurrency),
      ("fetch_timeout_ms",
        (l.timeoutMillis.map fun n => "Some(" ++ Text.decimal n ++ ")").getD "None")]

/-- A selection as shown in messages. -/
def Selection.shown (s : Selection) : String :=
  Quoted.shownRecord "SelectionConfig"
    [("tags", s.query.shown), ("secrets", shownBool s.secrets), ("keys", shownBool s.keys),
      ("fail_on_error", shownBool s.failOnFaults)]

/-- Telemetry as shown in messages. -/
def Telemetry.shown (t : Telemetry) : String :=
  Quoted.shownRecord "TelemetryConfig"
    [("log_level", Quoted.shown t.logLevel), ("metrics", shownBool t.metrics)]

/-- The settings as shown in messages. The credential is never shown. -/
def Settings.shown (s : Settings) : String :=
  Quoted.shownRecord "AppConfig"
    [("app_name", Quoted.shown s.name), ("app_env", Quoted.shown s.environment),
      ("vault", s.vault.shown), ("loader", s.limits.shown), ("selection", s.selection.shown),
      ("telemetry", s.telemetry.shown)]

end KeyIntake
