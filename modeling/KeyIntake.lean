import KeyIntake.Command
import KeyIntake.Command.Complaint
import KeyIntake.Decimal.Binary64
import KeyIntake.Decimal.Notation
import KeyIntake.Decimal.Shortest
import KeyIntake.Dictionary
import KeyIntake.Digest.Sha256
import KeyIntake.Distinct
import KeyIntake.Fault
import KeyIntake.Harvest
import KeyIntake.Item
import KeyIntake.Keyring
import KeyIntake.Keyring.Memory
import KeyIntake.Keyring.PrivateKey
import KeyIntake.Keyring.SigningKey
import KeyIntake.Keyring.Source
import KeyIntake.Load.Agenda
import KeyIntake.Load.Counter
import KeyIntake.Load.Ending
import KeyIntake.Load.Event
import KeyIntake.Load.Job
import KeyIntake.Load.Limits
import KeyIntake.Load.Log
import KeyIntake.Load.Pool
import KeyIntake.Load.Report
import KeyIntake.Load.Stock
import KeyIntake.Log
import KeyIntake.Log.Filter
import KeyIntake.Main
import KeyIntake.Proofs.Distinct
import KeyIntake.Proofs.Load.Accounting
import KeyIntake.Proofs.Load.Agenda
import KeyIntake.Proofs.Load.Basic
import KeyIntake.Proofs.Load.Concurrency
import KeyIntake.Proofs.Load.Conservation
import KeyIntake.Proofs.Load.Dispatch
import KeyIntake.Proofs.Load.Measures
import KeyIntake.Proofs.Load.Moment
import KeyIntake.Proofs.Load.Pool
import KeyIntake.Proofs.Load.Progress
import KeyIntake.Proofs.Load.Report
import KeyIntake.Proofs.Load.Sequential
import KeyIntake.Proofs.Load.Trace
import KeyIntake.Settings
import KeyIntake.Settings.Files
import KeyIntake.Settings.Layers
import KeyIntake.Settings.Variable
import KeyIntake.TagQuery
import KeyIntake.Text.Base64
import KeyIntake.Text.Blank
import KeyIntake.Text.Digits
import KeyIntake.Text.Hex
import KeyIntake.Text.Lines
import KeyIntake.Text.Printable
import KeyIntake.Text.Quoted
import KeyIntake.Toml.Document
import KeyIntake.Toml.Quote
import KeyIntake.Toml.Scalar
import KeyIntake.Tree
import KeyIntake.Tree.Json
import KeyIntake.Tree.Reading
import KeyIntake.Vault.Client
import KeyIntake.Vault.Dialogue
import KeyIntake.Vault.Endpoint
import KeyIntake.Vault.Exchange
import KeyIntake.Vault.Health
import KeyIntake.Vault.Intake
import KeyIntake.Vault.Pages
import KeyIntake.Vault.Settings
import KeyIntake.Vault.Signing
import KeyIntake.Word
import KeyIntake.Proofs.Keyring.PrivateKey
import KeyIntake.Proofs.Load.Collection
import KeyIntake.Proofs.Load.Survival
import KeyIntake.Proofs.Load.Gathered
import KeyIntake.Proofs.Keyring.Content
import KeyIntake.Proofs.Vault.Failure
import KeyIntake.Proofs.Vault.Listing
import KeyIntake.Proofs.Vault.Intake
import KeyIntake.Proofs.Command.Status
import KeyIntake.Proofs.Load.Instants
import KeyIntake.Proofs.Load.Monotone
import KeyIntake.Proofs.Load.Workload
import KeyIntake.Proofs.Load.Merge
import KeyIntake.Proofs.Load.Correspondence
import KeyIntake.Proofs.Keyring.Secrecy
import KeyIntake.Proofs.Dictionary
import KeyIntake.Proofs.Tree.Layer
import KeyIntake.Proofs.Toml.Sorted
import KeyIntake.Proofs.Settings.Variable
import KeyIntake.Proofs.Tree.Record
import KeyIntake.Proofs.Settings.Parts
import KeyIntake.Proofs.Settings.Layered
import KeyIntake.Proofs.Settings.TextVariable
import KeyIntake.Proofs.Vault.Value
import KeyIntake.Proofs.Vault.Folder
import KeyIntake.Proofs.Text.Basic
import KeyIntake.Proofs.Vault.Classification
import KeyIntake.Proofs.Text.Hex
import KeyIntake.Proofs.Keyring.Line
import KeyIntake.Proofs.Text.Lines
import KeyIntake.Proofs.Load.PerLine
import KeyIntake.Proofs.TagQuery
import KeyIntake.Proofs.Settings.RecordedEnvironment
import KeyIntake.Proofs.Text.Base64
import KeyIntake.Proofs.Vault.Signatures
import KeyIntake.Proofs.Text.Digits
import KeyIntake.Proofs.Vault.SigningKeys
import KeyIntake.Proofs.Tree.Json
import KeyIntake.Proofs.Tree.Declared
import KeyIntake.Proofs.Settings.Declared
import KeyIntake.Proofs.Load.Timeout
