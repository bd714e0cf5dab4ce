import KeyIntake.Text.Blank
import KeyIntake.Text.Quoted
/-!
# Settings of the vault

Where the vault is, how to log in, and under which mounts secrets and signing keys are kept.

## Main definitions

* `VaultSettings` — the settings, with their defaults.
* `VaultSettings.secretPath` — the path of a secret that was listed.
* `VaultSettings.pageLength` — the number of entries on a page, at least one.
-/

set_option autoImplicit false

namespace KeyIntake

/-- The settings of the vault. -/
structure VaultSettings where
  endpoint : String := "http://localhost:8200"
  roleId : String := ""
  secretId : String := ""
  loginMount : String := "approle"
  secretMount : String := "secret"
  /-- The folder that holds the secrets to load. -/
  folder : String := ""
  /-- The field of a secret that holds its value. -/
  valueField : String := "value"
  keyMount : String := "transit"
  pageSize : Nat := 25
  deriving DecidableEq, Repr

namespace VaultSettings

/-- The folder without slashes at its ends. -/
def innerFolder (s : VaultSettings) : String :=
  String.ofList (Text.trimBy (· == '/') s.folder.toList)

/-- The path of a secret that was listed under a name. -/
def secretPath (s : VaultSettings) (name : String) : String :=
  if s.innerFolder.isEmpty then name else s.innerFolder ++ "/" ++ name

/-- The number of entries on a page, at least one. -/
def pageLength (s : VaultSettings) : Nat := max 1 s.pageSize

/-- The settings as shown in messages. The credential is never shown. -/
def shown (s : VaultSettings) : String :=
  Quoted.shownRecord "VaultConfig"
    [("endpoint", Quoted.shown s.endpoint), ("role_id", Quoted.shown s.roleId),
      ("secret_id", "Secret([REDACTED alloc::string::String])"),
      ("approle_mount", Quoted.shown s.loginMount), ("kv_mount", Quoted.shown s.secretMount),
      ("kv_prefix", Quoted.shown s.folder), ("value_field", Quoted.shown s.valueField),
      ("transit_mount", Quoted.shown s.keyMount), ("page_size", Text.decimal s.pageSize)]

end VaultSettings

end KeyIntake
