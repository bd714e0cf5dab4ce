import KeyIntake.Keyring.SigningKey
import KeyIntake.Text.Base64
import KeyIntake.Vault.Client
import KeyIntake.Word
/-!
# Signing in the vault

A signing key is looked up by name, after which the vault signs payloads with it and checks
signatures. Payloads go to the vault in Base64.

## Main definitions

* `Client.signingKey` — look up a signing key.
* `Client.sign`, `Client.verify` — sign a payload, and check a signature.
* `SigningKey.shown` — a reference to a key as shown in messages.
-/

set_option autoImplicit false

namespace KeyIntake

/-- A reference to a signing key as shown in messages. -/
def SigningKey.shown (k : SigningKey) : String :=
  Quoted.shownRecord "TransitSigningHandle"
    [("mount", Quoted.shown k.mount), ("name", Quoted.shown k.name),
      ("version", (k.version.map fun n => "Some(" ++ Text.decimal n ++ ")").getD "None"),
      ("key_id", Quoted.shown k.id)]

namespace Client

/-! ### Looking up keys -/

/-- The version that a key is to be pinned to, if it is to be pinned. -/
def pinned (name : String) : Option String → Except Fault (Option Nat)
  | none => .ok none
  | some text =>
    match Word.ofText? text.toList with
    | some n => .ok (some n)
    | none =>
      .error ⟨.validation, "Invalid transit key version '" ++ text ++ "' for " ++ name⟩

/-- The identifier of a signing key: its resource below the endpoint as the settings write it,
without slashes at its end. -/
def keyId (s : VaultSettings) (name : String) : String :=
  String.ofList (Text.trimEndBy (· == '/') s.endpoint.toList) ++ "/v1/" ++ s.keyMount ++ "/keys/" ++
    name

/-- Look up a signing key and pin it to a version if one is given. A text that is no version is
refused before anything is asked. -/
def signingKey (c : Client) (name : String) (version : Option String) :
    Dialogue (Except Fault SigningKey) :=
  match pinned name version with
  | .error fault => .done (.error fault)
  | .ok version =>
    let found := c.exchange ("Failed to read transit key: " ++ name) Exchange.Content.keySort .get
      (c.settings.keyMount ++ "/keys/" ++ name) none
    found.andThen fun _ => do
      let id := keyId c.settings name
      log .debug "Bound signing handle to transit key" [("key_id", .text id)]
      return .ok { mount := c.settings.keyMount, name, version, id }

/-! ### Signatures -/

/-- Where the records about signatures come from. -/
def signingTarget : String := "keyloader_adapter_vault::signing"

/-- What is sent to have a payload signed. The version is sent along if the key is pinned to one. -/
def signBody (k : SigningKey) (payload : List UInt8) : Tree :=
  .tableOf (("input", .text (Base64.encode payload)) ::
    (k.version.map fun n => ("key_version", Tree.unsigned n)).toList)

/-- What is sent to have a signature checked. -/
def verifyBody (payload : List UInt8) (signature : String) : Tree :=
  .tableOf [("input", .text (Base64.encode payload)), ("signature", .text signature)]

/-- Sign a payload. -/
def sign (c : Client) (k : SigningKey) (payload : List UInt8) :
    Dialogue (Except Fault String) :=
  let signed := c.exchange ("Failed to sign with key: " ++ k.name) Exchange.Content.signature .post
    (k.mount ++ "/sign/" ++ k.name) (some (signBody k payload))
  signed.andThen fun signature => do
    Dialogue.log
      { level := .debug, target := signingTarget, message := "Signed payload with transit key"
        fields := [("key", .text k.name)] }
    return .ok signature

/-- Check the signature of a payload. -/
def verify (c : Client) (k : SigningKey) (payload : List UInt8) (signature : String) :
    Dialogue (Except Fault Bool) :=
  c.exchange ("Failed to verify signature with key: " ++ k.name) Exchange.Content.verdict .post
    (k.mount ++ "/verify/" ++ k.name) (some (verifyBody payload signature))

end Client

end KeyIntake
