import KeyIntake.Item
import KeyIntake.Tree.Reading
import KeyIntake.Vault.Dialogue
/-!
# What replies hold

A reply of the vault is an envelope around data. This module says which replies are envelopes, what
data the various requests get, and for which reasons an exchange fails.

## Main definitions

* `Exchange.Failure` — why an exchange fails, with `Exchange.Failure.message`.
* `Reply.envelope?`, `Reply.data`, `Reply.login` — what a reply holds.
* `Exchange.Content` — what data hold, with one value for each sort of data.
-/

set_option autoImplicit false

namespace KeyIntake

/-- Why an exchange with the vault fails. -/
inductive Exchange.Failure where
  /-- The vault says no, with a status. -/
  | refused (status : Nat)
  /-- There is no reply, or none of the expected form. -/
  | unusable
  /-- The reply has no data. -/
  | noData
  /-- The reply to a login grants nothing. -/
  | noGrant
  /-- The value of a secret is not made of texts. -/
  | badValue
  /-- The endpoint has a scheme that cannot be spoken. -/
  | badScheme (scheme : String)
  deriving DecidableEq, Repr

namespace Exchange

/-- The text of a failure. -/
def Failure.message : Failure → String
  | refused status =>
    "The Vault server returned an error (status code " ++ Text.decimal status ++ ")"
  | unusable => "An error occurred with the request"
  | noData => "The result contained an empty data field"
  | noGrant => "The request returned an empty response"
  | badValue => "Error parsing value into JSON"
  | badScheme scheme => "Invalid scheme for HTTP URL: " ++ scheme

/-- The fault that a failure is, in the context of what was attempted. -/
def Failure.fault (context : String) (f : Failure) : Fault := Fault.classify f.message context

/-- The result of an exchange. -/
abbrev Result (α : Type) := Except Failure α

/-- A value that was found, or else a failure. -/
def demand {α : Type} (f : Failure) : Option α → Result α
  | some a => .ok a
  | none => .error f

end Exchange

/-! ### Trees by sort -/

namespace Tree

/-- A tree is null. -/
def isNull : Tree → Bool
  | null => true
  | _ => false

/-- The text that a tree is, if it is one. -/
def text? (t : Tree) : Option String := t.asText.toOption

/-- The word that a tree is, if it is one. -/
def word? (t : Tree) : Option Nat := (t.asWord .size).toOption

/-- The truth value that a tree is, if it is one. -/
def bool? (t : Tree) : Option Bool := t.asBool.toOption

/-- The texts by key that a tree is, if it is a table of texts. -/
def texts? (t : Tree) : Option (Dictionary String) := t.asTags.toOption

/-- The value of a field; null if there is none. -/
def field (t : Tree) (key : String) : Tree := (t.field? key).getD null

/-- The texts that a list holds, if it holds nothing else. -/
def textItems? : Tree → Option (List String)
  | list items => items.mapM text?
  | _ => none

end Tree

/-! ### Envelopes -/

namespace Reply

/-- The statuses of success. -/
def isSuccess (status : Nat) : Bool := 200 ≤ status && status ≤ 208

/-- The body of a refusal: a table with a list of texts under `errors`. -/
def isRefusal (body : Tree) : Bool := (body.field "errors").textItems?.isSome

/-- The part of an envelope that a login fills: nothing, or a table with a token. -/
def isGrant (t : Tree) : Bool := t.isNull || (t.field "client_token").text?.isSome

/-- An envelope says which request it answers and for how long the answer holds. -/
def isEnvelope (t : Tree) : Bool :=
  (t.field "request_id").text?.isSome && (t.field "lease_id").text?.isSome &&
    (t.field "lease_duration").word?.isSome && (t.field "renewable").bool?.isSome &&
    isGrant (t.field "auth")

/-- The envelope that a reply is. -/
def envelope? : Reply → Exchange.Result Tree
  | unreachable => .error .unusable
  | dropped => .error .unusable
  | answered _ none => .error .unusable
  | answered status (some body) =>
    if isSuccess status then if isEnvelope body then .ok body else .error .unusable
    else if isRefusal body then .error (.refused status)
    else .error .unusable

/-- The data of a reply. -/
def data (r : Reply) : Exchange.Result Tree := do
  let envelope ← r.envelope?
  if (envelope.field "data").isNull then .error .noData else .ok (envelope.field "data")

/-- The token that the reply to a login grants. Such a reply has no data. -/
def login (r : Reply) : Exchange.Result String := do
  let envelope ← r.envelope?
  if (envelope.field "data").isNull then
    Exchange.demand .noGrant ((envelope.field "auth").field "client_token").text?
  else .error .unusable

end Reply

/-! ### Data -/

namespace Exchange

/-- What data hold, if they have the expected form. -/
abbrev Content (α : Type) := Tree → Result α

/-- What is known of a secret without its value. -/
structure Metadata where
  version : Nat
  tags : Option Tags

namespace Content

/-- A list of names. -/
def names : Content (List String) := fun t => demand .unusable (t.field "keys").textItems?

/-- The metadata of a secret. Tags may be missing or null. -/
def metadata : Content Metadata := fun t =>
  let tags := t.field "custom_metadata"
  match (t.field "current_version").word?, tags.isNull, tags.texts? with
  | some version, true, _ => .ok ⟨version, none⟩
  | some version, false, some tags => .ok ⟨version, some tags⟩
  | _, _, _ => .error .unusable

/-- The fields of a secret, all of which have to be texts. -/
def fields : Content (Dictionary String) := fun t =>
  match t.field? "data" with
  | some value => demand .badValue value.texts?
  | none => .error .unusable

/-- The sorts of signing key that the vault has. -/
def keySorts : List String :=
  ["aes128-gcm96", "aes256-gcm96", "chacha20-poly1305", "ed25519", "ecdsa-p256", "ecdsa-p384",
    "ecdsa-p521", "rsa-2048", "rsa-3072", "rsa-4096"]

/-- The sort of a signing key. -/
def keySort : Content String := fun t =>
  demand .unusable ((t.field "type").text?.filter keySorts.contains)

/-- A signature. -/
def signature : Content String := fun t => demand .unusable (t.field "signature").text?

/-- The verdict on a signature. -/
def verdict : Content Bool := fun t => demand .unusable (t.field "valid").bool?

end Content

end Exchange

end KeyIntake
