import KeyIntake.Keyring.PrivateKey
import KeyIntake.Keyring.Source
import KeyIntake.Load.Counter
import KeyIntake.Load.Log
/-!
# The keyring

The keyring holds the private keys and the signing keys that one pass over a vault brings in. The
secrets are loaded first, each line of a secret being a private key, then the signing keys.

## Main definitions

* `Selection` — which items are loaded.
* `Intake` — the loads of one pass.
* `Source.intake` — the pass over a source.
* `Keyring`, `Intake.keyring` — the keys that a pass brings in.
-/

set_option autoImplicit false

namespace KeyIntake

/-- Which items are loaded, and whether faults on the way count as failure. -/
structure Selection where
  query : TagQuery := {}
  secrets : Bool := true
  keys : Bool := false
  failOnFaults : Bool := false
  deriving DecidableEq

/-- Private keys with distinct fingerprints, signing keys with distinct identifiers, and the number
of faults met. -/
structure Keyring where
  privateKeys : Distinct PrivateKey := .empty
  signingKeys : Distinct SigningKey := .empty
  faults : Nat := 0

namespace Keyring

/-- The signing key with an identifier. -/
def key? (r : Keyring) (id : String) : Option SigningKey :=
  r.signingKeys.values.find? fun k => k.id == id

/-- A private key with this fingerprint is held. -/
def containsFingerprint (r : Keyring) (fingerprint : String) : Bool :=
  r.privateKeys.values.any fun k => k.fingerprint == fingerprint

/-- The number of keys of both sorts. -/
def size (r : Keyring) : Nat := r.privateKeys.size + r.signingKeys.size

/-- There are no keys. -/
def isEmpty (r : Keyring) : Bool := r.size == 0

end Keyring

/-- The loads of one pass over a source; a load that was not selected, or was never come to, is
missing. -/
structure Intake where
  secrets : Option (Report PrivateKey)
  keys : Option (Report SigningKey)

/-- One pass over a source: load what is selected, the signing keys after the secrets. If the load
of the secrets never returns, the signing keys are never come to. -/
def Source.intake (s : Source) (limits : Limits) (selection : Selection) : Intake :=
  let secrets :=
    if selection.secrets then
      some (s.loadSecrets limits selection.query (Mapping.perLine PrivateKey.parse))
    else none
  let goesOn := (secrets.map Report.returned).getD true
  let keys :=
    if selection.keys && goesOn then
      some (s.loadKeys limits selection.query fun _ key => .value [key])
    else none
  { secrets, keys }

namespace Intake

/-- What the load of secrets brought in; nothing if there was none. -/
def secretHarvest (i : Intake) : Harvest PrivateKey := (i.secrets.map Report.harvest).getD .empty

/-- What the load of signing keys brought in; nothing if there was none. -/
def keyHarvest (i : Intake) : Harvest SigningKey := (i.keys.map Report.harvest).getD .empty

/-- The keys that the pass brings in. -/
def keyring (i : Intake) : Keyring where
  privateKeys := i.secretHarvest.values
  signingKeys := i.keyHarvest.values
  faults := i.secretHarvest.faults + i.keyHarvest.faults

/-- The time that the pass takes: that of its loads together, if both return. -/
def elapsed (i : Intake) : Option Nat := do
  let a ← (i.secrets.map Report.elapsed).getD (some 0)
  let b ← (i.keys.map Report.elapsed).getD (some 0)
  some (a + b)

/-- The largest number of fetches that went on at the same time. -/
def peak (i : Intake) : Nat :=
  max ((i.secrets.map Report.peak).getD 0) ((i.keys.map Report.peak).getD 0)

/-- The counters that the pass moves. -/
def counters (i : Intake) : List Counter :=
  (i.secrets.map fun r => Event.counters r.kind r.trace).getD [] ++
    (i.keys.map fun r => Event.counters r.kind r.trace).getD []

/-- Where records about a pass come from. -/
def target : String := "keyloader_bootstrap::registry"

/-- The record that sums up a load of the pass. -/
def summary (message counted : String) (size faults : Nat) : LogRecord where
  level := .info
  target := target
  message := message
  fields := [(counted, .number size), ("errors", .number faults)]

/-- The log of one load of the pass: its events and, once it has returned, its summary. -/
def loadRecords {α : Type} [BEq α] (message counted : String) (r : Report α) : List LogRecord :=
  r.trace.map (Event.record r.kind) ++
    if r.returned then [summary message counted r.harvest.size r.harvest.faults] else []

/-- The log of the pass. -/
def records (i : Intake) : List LogRecord :=
  (i.secrets.map (loadRecords "Loaded private keys from secrets" "entries")).getD [] ++
    (i.keys.map (loadRecords "Loaded remote signing keys" "keys")).getD []

end Intake

end KeyIntake
