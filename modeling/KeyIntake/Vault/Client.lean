import KeyIntake.Load.Ending
import KeyIntake.Vault.Endpoint
import KeyIntake.Vault.Exchange
import KeyIntake.Vault.Health
import KeyIntake.Vault.Settings
/-!
# Clients of the vault

A client has logged in and keeps the token that it was granted. What it does is a dialogue that
ends in a value or in a fault.

## Main definitions

* `Client` — settings, endpoint and token.
* `Client.connect` — log in.
* `Client.exchange` — one request and what its reply holds.
* `Client.secretFields`, `Client.field`, `Client.secretValue` — read secrets.
* `Client.probe`, `Client.health` — find out whether the vault is there.
-/

set_option autoImplicit false

namespace KeyIntake

/-- A client of the vault that has logged in. -/
structure Client where
  settings : VaultSettings
  endpoint : Endpoint
  token : String
  deriving DecidableEq, Repr

/-- Go on with the value of a dialogue that may end in a fault, if there is one. -/
def Dialogue.andThen {α β : Type} (d : Dialogue (Except Fault α))
    (next : α → Dialogue (Except Fault β)) : Dialogue (Except Fault β) :=
  d.bind fun
    | .ok value => next value
    | .error fault => .done (.error fault)

namespace Client

/-- Where the records of a client come from. -/
def target : String := "keyloader_adapter_vault::client"

/-- Where the records about the health of the vault come from. -/
def healthTarget : String := "keyloader_adapter_vault::health"

/-- Write a record of a client. -/
def log (level : Level) (message : String) (fields : List (String × LogValue)) : Dialogue Unit :=
  .log { level, target, message, fields }

/-! ### Logging in -/

/-- The request of a login. -/
def loginRequest (s : VaultSettings) (e : Endpoint) : Request where
  method := .post
  url := e.resolve ("/auth/" ++ s.loginMount ++ "/login")
  body := some (.tableOf [("role_id", .text s.roleId), ("secret_id", .text s.secretId)])

/-- The schemes that can be spoken. -/
def schemes : List String := ["http", "https"]

/-- Log in. An endpoint that is no URL is not a fault but a panic. -/
def connect (s : VaultSettings) : Dialogue (Ending Client) := do
  log .info ("Connecting to Vault at " ++ s.endpoint) []
  match Endpoint.parse? s.endpoint with
  | none =>
    pure (.panic (some ("called \x60Result::unwrap()\x60 on an \x60Err\x60 value: " ++
      Quoted.shown ("Invalid URL format: " ++ s.endpoint))))
  | some endpoint =>
    if schemes.contains endpoint.scheme then
      log .info "Authenticating with AppRole" [("mount", .text s.loginMount)]
      match (← Dialogue.send (loginRequest s endpoint)).login with
      | .error failure => pure (.fault (failure.fault "AppRole authentication failed"))
      | .ok token =>
        log .info "Successfully authenticated with Vault" []
        pure (.value { settings := s, endpoint, token })
    else
      pure (.fault ((Exchange.Failure.badScheme endpoint.scheme).fault
        "Failed to build Vault client settings"))

/-! ### Exchanges -/

/-- A request of a client. -/
def request (c : Client) (method : Method) (resource : String) (body : Option Tree) : Request where
  method := method
  url := c.endpoint.resolve resource
  token := some c.token
  body := body

/-- What a reply holds; a failure is a fault in the context of what was attempted. -/
def reading {α : Type} (context : String) (content : Exchange.Content α) (reply : Reply) :
    Except Fault α :=
  match reply.data.bind content with
  | .ok value => .ok value
  | .error failure => .error (failure.fault context)

/-- Send a request and read what its reply holds. -/
def exchange {α : Type} (c : Client) (context : String) (content : Exchange.Content α)
    (method : Method) (resource : String) (body : Option Tree) : Dialogue (Except Fault α) :=
  .ask (c.request method resource body) fun reply => .done (reading context content reply)

/-! ### Secrets -/

/-- The resource that holds a secret. -/
def secretResource (s : VaultSettings) (path : String) : String := s.secretMount ++ "/data/" ++ path

/-- Read all fields of a secret. -/
def secretFields (c : Client) (path : String) : Dialogue (Except Fault (Dictionary String)) := do
  log .debug ("Reading secret from path: " ++ path) []
  let read := c.exchange ("Failed to read secret at path: " ++ path) Exchange.Content.fields .get
    (secretResource c.settings path) none
  read.andThen fun fields => do
    log .debug ("Successfully read secret from path: " ++ path) []
    pure (.ok fields)

/-- A field of a secret, if it is there. -/
def pick (path name : String) (fields : Dictionary String) : Except Fault String :=
  match fields.get? name with
  | some value => .ok value
  | none =>
    .error ⟨.notFound, "Field '" ++ name ++ "' not found in secret at path: " ++ path⟩

/-- Read a field of a secret. -/
def field (c : Client) (path name : String) : Dialogue (Except Fault String) :=
  (c.secretFields path).andThen fun fields => pure (pick path name fields)

/-- Read the value of a secret: the field that the settings name. -/
def secretValue (c : Client) (path : String) : Dialogue (Except Fault String) :=
  c.field path c.settings.valueField

/-! ### Lists of names -/

/-- The resource that lists the folder of the secrets. -/
def folderResource (s : VaultSettings) : String := s.secretMount ++ "/metadata/" ++ s.folder

/-- List the folder of the secrets. -/
def folderNames (c : Client) (context : String) : Dialogue (Except Fault (List String)) :=
  c.exchange context Exchange.Content.names .list (folderResource c.settings) none

/-- List the signing keys. -/
def keyNames (c : Client) (context : String) : Dialogue (Except Fault (List String)) :=
  c.exchange context Exchange.Content.names .list (c.settings.keyMount ++ "/keys") none

/-- What is not found holds no names. -/
def orNoNames : Except Fault (List String) → Except Fault (List String)
  | .ok names => .ok names
  | .error fault => if fault.isNotFound then .ok [] else .error fault

/-! ### Health -/

/-- Find out whether the vault is there. A folder that is not found shows that it is. -/
def probe (c : Client) : Dialogue (Except Fault Unit) := do
  return (orNoNames (← c.folderNames "Vault health probe failed")).map fun _ => ()

/-- Write a record about the health of the vault. -/
def logHealth (level : Level) (message : String) : Dialogue Unit :=
  .log { level, target := healthTarget, message }

/-- The health of the vault. Exchanges take no time. -/
def health (c : Client) : Dialogue Health := do
  logHealth .debug "Performing Vault health check"
  match ← c.probe with
  | .ok _ =>
    logHealth .debug "Vault health check passed"
    pure (.healthy 0)
  | .error fault =>
    logHealth .warn ("Vault health check failed: " ++ fault.message)
    pure (.unhealthy fault.message)

end Client

end KeyIntake
