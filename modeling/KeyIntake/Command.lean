import KeyIntake.Command.Complaint
import KeyIntake.Log.Filter
import KeyIntake.Tree.Json
import KeyIntake.Vault.Intake
/-!
# The command

The command loads its settings, logs in, finds out whether the vault is there, and takes in keys. It
fails if one of these is not possible, and, if the settings say so, if faults were met on the way.

## Main definitions

* `Host` — what the command finds where it runs.
* `Run` — what a run does: its log, its requests, its status and its complaint.
* `Command.run` — the run with given settings.
* `Transcript`, `Command.transcript` — what is seen of a run.
-/

set_option autoImplicit false

namespace KeyIntake

/-- What the command finds where it runs. -/
structure Host where
  environment : Environment := {}
  files : FileTree := {}
  deriving DecidableEq, Repr

/-! ### Runs -/

/-- Why a run stops before its end. -/
inductive Stop where
  /-- Something failed. -/
  | failure (complaint : Complaint)
  /-- The run broke off with a message. -/
  | panic (message : String)
  deriving DecidableEq, Repr

namespace Stop

/-- The exit status. -/
def status : Stop → Nat
  | failure _ => 1
  | panic _ => 101

/-- What is printed in the end. -/
def text : Stop → String
  | failure complaint => complaint.text
  | panic message => "thread 'main' panicked:\n" ++ message ++ "\n"

end Stop

/-- What a run does: its log, its requests, and why it stops before its end if it does. -/
structure Run where
  records : List LogRecord := []
  requests : List Request := []
  stop : Option Stop := none

namespace Run

/-- The run that stops at once. -/
def stopped (s : Stop) : Run := { stop := some s }

/-- The run that stops at once because something failed. -/
def failed (message : String) : Run := stopped (.failure { message })

/-- A dialogue, and the run that follows on its answer. -/
def after {α : Type} (n : Network) (d : Dialogue α) (next : α → Run) : Run :=
  let rest := next (d.answer n)
  { rest with
    records := d.records n ++ rest.records
    requests := d.requests n ++ rest.requests }

/-- The exit status: zero if the run comes to its end. -/
def status (r : Run) : Nat := (r.stop.map Stop.status).getD 0

end Run

namespace Command

/-! ### Records -/

/-- Where the records of the command come from. -/
def target : String := "keyloader"

/-- Where the records of its beginning come from. -/
def startTarget : String := "keyloader_bootstrap::runtime"

/-- The record of the beginning. -/
def started (s : Settings) : LogRecord where
  level := .info
  target := startTarget
  message := "Runtime initialized"
  fields := [("app_name", .text s.name), ("app_env", .text s.environment),
    ("metrics", .flag s.telemetry.metrics)]

/-- The record of a vault that is there, or is not. -/
def healthRecord (h : Health) : LogRecord :=
  if h.isHealthy then { level := .info, target, message := "Vault is accessible" }
  else
    { level := .error, target, message := "Vault is not accessible"
      fields := [("error", .text (Quoted.shownOption h.error))] }

/-- The records of the keys that were taken in. -/
def keyRecords (k : Keyring) : List LogRecord :=
  { level := .info, target, message := "Key registry populated"
    fields := [("private_keys", .number k.privateKeys.size),
      ("signing_keys", .number k.signingKeys.size), ("errors", .number k.faults)] } ::
    k.privateKeys.values.map (fun key =>
      { level := .debug, target, message := "Registered private key"
        fields := [("source", .text key.source), ("fingerprint", .text key.fingerprint)] }) ++
    k.signingKeys.values.map fun key =>
      { level := .debug, target, message := "Registered signing key"
        fields := [("key_id", .text key.id)] }

/-- The record of faults, if there were any. -/
def faultRecords (faults : Nat) : List LogRecord :=
  if faults = 0 then []
  else
    [{ level := .warn, target, message := "Some vault items failed to load"
       fields := [("errors", .number faults)] }]

/-! ### The course of a run -/

/-- Take in keys, and fail if faults were met and the settings say so. -/
def takeIn (s : Settings) (n : Network) (c : Client) : Run :=
  let i := c.intake n s.limits s.selection
  let k := i.keyring
  { records := c.intakeRecords n i ++ keyRecords k ++ faultRecords k.faults
    requests := c.intakeRequests n i
    stop :=
      if 0 < k.faults ∧ s.selection.failOnFaults then
        some (.failure { message := Text.decimal k.faults ++ " vault item(s) failed to load" })
      else none }

/-- Go on with a client: find out whether the vault is there, then take in keys. -/
def withClient (s : Settings) (n : Network) (c : Client) : Run :=
  .after n c.health fun h =>
    .after n (.log (healthRecord h)) fun _ =>
      if h.isHealthy then takeIn s n c
      else .failed ("Vault health check failed: " ++ h.error.getD "")

/-- The run with given settings. -/
def run (s : Settings) (n : Network) : Run :=
  .after n (.log (started s)) fun _ =>
    .after n (Client.connect s.vault) fun
      | .value c => withClient s n c
      | .fault f => .failed f.message
      | .panic message => .stopped (.panic (message.getD ""))

end Command

/-! ### What is seen of a run -/

/-- A line of the printed log. -/
inductive LogLine where
  | plain (text : String)
  | structured (tree : Tree)
  deriving Repr

/-- The text of a line. -/
def LogLine.text : LogLine → String
  | plain text => text
  | structured tree => Json.write tree

/-- What is seen of a run: its exit status, the lines of its log, what it prints besides, and the
requests that it sends. -/
structure Transcript where
  status : Nat
  lines : List LogLine := []
  printed : String
  requests : List Request := []

namespace Command

/-- The filter of the log: that of a variable if it is one, else that of the settings. -/
def logFilter (e : Environment) (s : Settings) : LogFilter :=
  ((e.get? "RUST_LOG").bind LogFilter.strict?).getD (.lenient s.telemetry.logLevel)

/-- What is printed about the parts of the filter that are left out. -/
def filterNotes (e : Environment) (s : Settings) : String :=
  if ((e.get? "RUST_LOG").bind LogFilter.strict?).isSome then ""
  else
    String.join ((LogFilter.ignored s.telemetry.logLevel).map fun p =>
      "ignoring \x60" ++ p ++ "\x60: invalid filter directive\n")

/-- The line for a record. In production it is structured. -/
def line (s : Settings) (r : LogRecord) : LogLine :=
  if s.isProduction then .structured r.tree else .plain r.line

/-- What is seen of the command on a host, under a network. -/
def transcript (h : Host) (n : Network) : Transcript :=
  let directory := Settings.directory h.environment
  match Settings.load directory h.files h.environment with
  | .error fault =>
    let stop := Stop.failure (.ofLoadFault directory fault)
    { status := stop.status, printed := stop.text }
  | .ok s =>
    let r := run s n
    let filter := logFilter h.environment s
    { status := r.status
      lines := (r.records.filter filter.passes).map (line s)
      printed := filterNotes h.environment s ++ (r.stop.map Stop.text).getD ""
      requests := r.requests }

end Command

end KeyIntake
