import KeyIntake.Text.Quoted
import KeyIntake.Tree
/-!
# Log records

A record has a level, the part of the program that it comes from, a message and named values.

## Main definitions

* `Level` — the levels, most severe first.
* `LogValue`, `LogRecord` — named values and records.
* `LogRecord.brief`, `LogRecord.line` — a record in one line of text.
* `LogRecord.tree` — a record as a tree.
-/

set_option autoImplicit false

namespace KeyIntake

/-- The levels of log records. -/
inductive Level where
  | error
  | warn
  | info
  | debug
  | trace
  deriving DecidableEq, Repr

namespace Level

/-- The word for a level. -/
def label : Level → String
  | error => "ERROR"
  | warn => "WARN"
  | info => "INFO"
  | debug => "DEBUG"
  | trace => "TRACE"

/-- How much a level lets through: it lets through every level of at most its own verbosity. -/
def verbosity : Level → Nat
  | error => 1
  | warn => 2
  | info => 3
  | debug => 4
  | trace => 5

end Level

/-- A value in a log record. -/
inductive LogValue where
  | text (s : String)
  /-- A text that stands between quotes in a line with a target. -/
  | word (s : String)
  | number (n : Nat)
  | flag (b : Bool)
  deriving DecidableEq, Repr

namespace LogValue

/-- The plain text of a value. -/
def plain : LogValue → String
  | text s => s
  | word s => s
  | number n => Text.decimal n
  | flag b => if b then "true" else "false"

/-- The text of a value in which words stand between quotes. -/
def quoted : LogValue → String
  | word s => Quoted.shown s
  | v => v.plain

/-- The value as a tree. -/
def tree : LogValue → Tree
  | text s => .text s
  | word s => .text s
  | number n => .unsigned n
  | flag b => .bool b

end LogValue

/-- A log record. -/
structure LogRecord where
  level : Level
  target : String
  message : String
  fields : List (String × LogValue) := []
  deriving DecidableEq, Repr

namespace LogRecord

/-- Message and fields of a record in one line, given how to write values. -/
def body (write : LogValue → String) (r : LogRecord) : String :=
  " ".intercalate (r.message :: r.fields.map fun f => f.1 ++ "=" ++ write f.2)

/-- A record in one line, without its target. -/
def brief (r : LogRecord) : String := r.level.label ++ " " ++ r.body LogValue.plain

/-- A record in one line. -/
def line (r : LogRecord) : String :=
  r.level.label ++ " " ++ r.target ++ ": " ++ r.body LogValue.quoted

/-- A record as a tree. The message is one of the fields. -/
def tree (r : LogRecord) : Tree :=
  .tableOf [("level", .text r.level.label), ("target", .text r.target),
    ("fields", .tableOf (("message", .text r.message) :: r.fields.map fun f => (f.1, f.2.tree)))]

end LogRecord

end KeyIntake
