import KeyIntake.Keyring.SigningKey
import KeyIntake.Load.Report
/-!
# Sources of items

A source lists its items by kind and fetches secrets by name and signing keys by name and version.
The loads of its secrets and keys are the two ways in which items are taken in.

## Main definitions

* `Source` — a vault as a load sees it.
* `Source.loadSecrets`, `Source.loadKeys` — the loads of the two kinds.
-/

set_option autoImplicit false

namespace KeyIntake

/-- A vault as a load sees it: its listings and its fetches. -/
structure Source where
  listing : ItemKind → Listing
  secret : String → Fetch String
  key : String → Option String → Fetch SigningKey

namespace Source

variable {α : Type} [BEq α]

/-- Load the selected secrets and map their texts. -/
def loadSecrets (s : Source) (limits : Limits) (q : TagQuery) (mapping : Mapping String α) :
    Report α :=
  .ofListing .secret limits q
    (Job.of limits.timeoutMillis (fun item => s.secret item.name) mapping) (s.listing .secret)

/-- Load the selected signing keys and map the references to them. -/
def loadKeys (s : Source) (limits : Limits) (q : TagQuery) (mapping : Mapping SigningKey α) :
    Report α :=
  .ofListing .key limits q
    (Job.of limits.timeoutMillis (fun item => s.key item.name item.version) mapping)
    (s.listing .key)

end Source

end KeyIntake
