import KeyIntake.Decimal.Notation
import KeyIntake.Text.Quoted
import KeyIntake.Tree
/-!
# Reading typed values from trees

A record is read from a table, or from a list of its fields in the order of their declaration.
What a field does not give keeps its default. A value that does not fit is reported with its path
and the reason; of several misfits the first one in reading order is reported, and a required
field that is missing only after all fields that are there were read.

## Main definitions

* `Misfit`, `Misread` — reasons, and reasons with the path of the value.
* `Tree.asText`, `Tree.asWord`, `Tree.asBool`, `Tree.asTags` — values without fields.
* `Shape` — the fields of a record.
* `Shape.read` — read a record.
* `Wording` — the two wordings of a reason.
-/

set_option autoImplicit false

namespace KeyIntake

/-- What a value was wanted to be. -/
inductive Wanted where
  | text
  /-- A word that says how many. -/
  | size
  /-- A word that says how long. -/
  | millis
  | flag
  | table
  | record (name : String)
  /-- A record with all of its fields. -/
  | wholeRecord (name : String) (fields : Nat)
  /-- A list without further items. -/
  | fewerItems
  deriving DecidableEq, Repr

/-- Why a value does not fit. -/
inductive Misfit where
  | wrongType (found : Tree) (wanted : Wanted)
  | wrongValue (found : Tree) (wanted : Wanted)
  | wrongLength (length : Nat) (wanted : Wanted)
  | missing (field : String)

/-- A value that does not fit: its path and the reason. -/
structure Misread where
  path : List String
  reason : Misfit

/-- The result of reading a value. -/
abbrev Reading (α : Type) := Except Misread α

namespace Misread

/-- A misfit of the value itself. -/
def here {α : Type} (reason : Misfit) : Reading α := .error ⟨[], reason⟩

/-- A misread of the value of a field. -/
def under (key : String) (m : Misread) : Misread := { m with path := key :: m.path }

end Misread

/-! ### Values without fields -/

namespace Tree

/-- The text that a tree is. -/
def asText : Tree → Reading String
  | text s => .ok s
  | t => Misread.here (.wrongType t .text)

/-- The truth value that a tree is. -/
def asBool : Tree → Reading Bool
  | bool b => .ok b
  | t => Misread.here (.wrongType t .flag)

/-- The natural number that a tree is. -/
def asWord (wanted : Wanted) : Tree → Reading Nat
  | unsigned n => .ok n
  | signed i => if 0 ≤ i then .ok i.natAbs else Misread.here (.wrongValue (signed i) wanted)
  | t => Misread.here (.wrongType t wanted)

/-- The natural number that a tree is, if it is not null. -/
def asWord? (wanted : Wanted) : Tree → Reading (Option Nat)
  | null => .ok none
  | t => (t.asWord wanted).map some

/-- The texts of fields, by key. -/
def textFields (read : Dictionary String) : List (String × Tree) → Reading (Dictionary String)
  | [] => .ok read
  | (key, t) :: rest =>
    match t.asText with
    | .ok s => textFields (read.insert key s) rest
    | .error m => .error (m.under key)

/-- The texts by key that a table is. -/
def asTags : Tree → Reading (Dictionary String)
  | table fields => textFields .empty fields
  | t => Misread.here (.wrongType t .table)

end Tree

/-! ### Records -/

/-- A field of a record: its key, and how its value changes the record read so far. -/
structure Field (σ : Type) where
  key : String
  read : Tree → Reading (σ → σ)

namespace Field

variable {σ α : Type}

/-- The field whose value is read in a way and then put in place. -/
def of (key : String) (read : Tree → Reading α) (put : α → σ → σ) : Field σ :=
  ⟨key, fun t => (read t).map put⟩

end Field

/-- A record: its name in messages, its defaults, its fields in the order of their declaration, and
the keys of those that have to be given. -/
structure Shape (σ : Type) where
  name : String
  defaults : σ
  fields : List (Field σ)
  required : List String := []

namespace Shape

variable {σ : Type}

/-- Read the fields of a table, in order. Unknown fields are ignored. -/
def readEntries (shape : Shape σ) (s : σ) : List (String × Tree) → Reading σ
  | [] => .ok s
  | (key, t) :: rest =>
    match shape.fields.find? fun f => f.key == key with
    | none => readEntries shape s rest
    | some f =>
      match f.read t with
      | .ok change => readEntries shape (change s) rest
      | .error m => .error (m.under key)

/-- The first required field that a table does not have. -/
def missing? (shape : Shape σ) (entries : List (String × Tree)) : Option String :=
  shape.required.find? fun key => (Entries.get? entries key).isNone

/-- Read the items of a list as fields from number `n` on, in the order of their declaration.
Further items are left over. -/
def readItems (shape : Shape σ) (n : Nat) (s : σ) : List (Field σ) → List Tree → Reading σ
  | [], _ => .ok s
  | f :: fields, [] =>
    if shape.required.contains f.key then
      Misread.here (.wrongLength n (.wholeRecord shape.name shape.fields.length))
    else readItems shape (n + 1) s fields []
  | f :: fields, t :: rest =>
    match f.read t with
    | .ok change => readItems shape (n + 1) (change s) fields rest
    | .error m => .error (m.under (Text.decimal n))

/-- Read a record. A strict reading refuses a list with more items than the record has fields. -/
def read (strict : Bool) (shape : Shape σ) : Tree → Reading σ
  | .table entries =>
    match readEntries shape shape.defaults entries with
    | .error m => .error m
    | .ok s =>
      match shape.missing? entries with
      | some key => Misread.here (.missing key)
      | none => .ok s
  | .list items =>
    match readItems shape 0 shape.defaults shape.fields items with
    | .error m => .error m
    | .ok s =>
      if strict ∧ shape.fields.length < items.length then
        Misread.here (.wrongLength items.length .fewerItems)
      else .ok s
  | t => Misread.here (.wrongType t (.record shape.name))

end Shape

/-! ### Wordings -/

/-- What a value was wanted to be, in words. -/
def Wanted.words : Wanted → String
  | text => "a string"
  | size => "usize"
  | millis => "u64"
  | flag => "a boolean"
  | table => "a map"
  | record name => "struct " ++ name
  | wholeRecord name 1 => "struct " ++ name ++ " with 1 element"
  | wholeRecord name n => "struct " ++ name ++ " with " ++ Text.decimal n ++ " elements"
  | fewerItems => "fewer elements in array"

/-- The two wordings of misfits: that of JSON values and that of layered settings. -/
inductive Wording where
  | json
  | layered
  deriving DecidableEq, Repr

namespace Wording

/-- A value that was found, in words. -/
def found : Wording → Tree → String
  | json, .null => "null"
  | layered, .null => "unit"
  | json, .bool b => "boolean " ++ tick (boolText b)
  | layered, .bool b => "bool " ++ boolText b
  | json, .unsigned n => "integer " ++ tick (Text.decimal n)
  | layered, .unsigned n => "unsigned int " ++ tick (Text.decimal n)
  | json, .signed i => "integer " ++ tick (Text.signedDecimal i)
  | layered, .signed i => "signed int " ++ tick (Text.signedDecimal i)
  | json, .float x => "floating point " ++ tick x.scientific
  | layered, .float x => "float " ++ tick x.plain
  | _, .text s => "string " ++ Quoted.shown s
  | _, .list _ => "sequence"
  | _, .table _ => "map"
where
  /-- A text between back quotes. -/
  tick (s : String) : String := "\x60" ++ s ++ "\x60"
  /-- A truth value in words. -/
  boolText (b : Bool) : String := if b then "true" else "false"

/-- A misfit in words. -/
def message (w : Wording) : Misfit → String
  | .wrongType t wanted =>
    match w with
    | json => "invalid type: " ++ found json t ++ ", expected " ++ wanted.words
    | layered => "invalid type: found " ++ found layered t ++ ", expected " ++ wanted.words
  | .wrongValue t wanted =>
    match w with
    | json => "invalid value: " ++ found json t ++ ", expected " ++ wanted.words
    | layered => "invalid value " ++ found layered t ++ ", expected " ++ wanted.words
  | .wrongLength n wanted =>
    "invalid length " ++ Text.decimal n ++ ", expected " ++ wanted.words
  | .missing field => "missing field \x60" ++ field ++ "\x60"

end Wording

end KeyIntake
