import KeyIntake.Keyring.Source
/-!
# A vault in memory

A vault whose listings and fetches are given as data. A secret is fetched under its name, a signing
key under its name behind `key:`.

## Main definitions

* `MemoryVault` — listings by kind and fetches by name.
* `MemoryVault.source` — the vault as a source.
-/

set_option autoImplicit false

namespace KeyIntake

/-- Apply a function to the value that a fetch gives. -/
def Fetch.map {α β : Type} (f : α → β) : Fetch α → Fetch β
  | ends delay ending => ends delay (ending.andThen fun a => .value (f a))
  | hangs => hangs

/-- A vault whose answers are data. -/
structure MemoryVault where
  secrets : Listing := .ok []
  keys : Listing := .ok []
  fetches : Dictionary (Fetch String) := .empty

namespace MemoryVault

/-- The fetch of a secret. A name that the vault does not hold is not found at once. -/
def secret (v : MemoryVault) (name : String) : Fetch String :=
  (v.fetches.get? name).getD (.ends 0 (.fault ⟨.notFound, "secret '" ++ name ++ "'"⟩))

/-- The name under which the fetch of a signing key is kept. -/
def keyName (name : String) : String := "key:" ++ name

/-- The fetch of a signing key. The text that is kept for it is its identifier; by default the
identifier is made from its name and version. -/
def key (v : MemoryVault) (name : String) (version : Option String) : Fetch SigningKey :=
  let standard := "mem/" ++ name ++ (version.map ("/" ++ ·)).getD ""
  ((v.fetches.get? (keyName name)).getD (.ends 0 (.value ""))).map fun text =>
    { mount := "mem", name, id := if text.isEmpty then standard else text }

/-- The vault as a source. -/
def source (v : MemoryVault) : Source where
  listing
    | .secret => v.secrets
    | .key => v.keys
  secret := v.secret
  key := v.key

end MemoryVault

end KeyIntake
