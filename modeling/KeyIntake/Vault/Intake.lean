import KeyIntake.Keyring
import KeyIntake.Vault.Pages
import KeyIntake.Vault.Signing
/-!
# Taking in keys from the vault

Under a network a client is a source, so a pass over the vault is a pass over that source. What
the pass asks of the vault, and what it writes down, is what its listings and the fetches that it
started ask and write down.

## Main definitions

* `Client.source` — the vault as a source.
* `Client.intake` — a pass over the vault.
* `Client.intakeRequests`, `Client.intakeRecords` — the requests and the log of a pass.
-/

set_option autoImplicit false

namespace KeyIntake

/-- The fetch that a dialogue is under a network. It ends at once. -/
def Dialogue.fetch {α : Type} (d : Dialogue (Except Fault α)) (n : Network) : Fetch α :=
  .ends 0 (.ofExcept (d.answer n))

namespace Client

/-- The vault as a source, under a network. -/
def source (c : Client) (n : Network) : Source where
  listing kind := (c.listing kind).answer n
  secret name := (c.secretValue name).fetch n
  key name version := (c.signingKey name version).fetch n

/-- A pass over the vault. -/
def intake (c : Client) (n : Network) (limits : Limits) (selection : Selection) : Intake :=
  (c.source n).intake limits selection

/-- The dialogues of a load: its listing, then the fetches that it started. The answers are left
out. -/
def loadDialogues {α : Type} (c : Client) (r : Report α) : List (Dialogue Unit) :=
  (c.listing r.kind).bind (fun _ => .done ()) ::
    r.starts.map fun start =>
      match r.kind with
      | .secret => (c.secretValue start.item.name).bind fun _ => .done ()
      | .key => (c.signingKey start.item.name start.item.version).bind fun _ => .done ()

/-- The dialogues of a pass. -/
def intakeDialogues (c : Client) (i : Intake) : List (Dialogue Unit) :=
  (i.secrets.map c.loadDialogues).getD [] ++ (i.keys.map c.loadDialogues).getD []

/-- The requests that a pass sends. -/
def intakeRequests (c : Client) (n : Network) (i : Intake) : List Request :=
  (c.intakeDialogues i).flatMap (Dialogue.requests n)

/-- The log of a pass: the records of its dialogues and its own. -/
def intakeRecords (c : Client) (n : Network) (i : Intake) : List LogRecord :=
  (c.intakeDialogues i).flatMap (Dialogue.records n) ++ i.records

end Client

end KeyIntake
