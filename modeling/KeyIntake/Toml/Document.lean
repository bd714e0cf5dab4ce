import KeyIntake.Toml.Scalar
/-!
# TOML documents

A document is a sequence of statements, one to a line: a header opens a table or adds one to a
list of tables, an assignment gives a key of the open table a value. Keys may be dotted. A table
that was opened by a header, one that dotted keys made, and one that only leads to others may each
be extended in their own way only, so the document under construction remembers how each table
came about.

## Main definitions

* `Toml.Slot`, `Toml.Origin` — a document under construction.
* `Toml.assign?`, `Toml.openTable?`, `Toml.addTable?` — what the statements do to it.
* `Toml.read?` — the tree of a document.
-/

set_option autoImplicit false

namespace KeyIntake

namespace Toml

/-! ### Documents under construction -/

/-- How a table came about. -/
inductive Origin where
  /-- A header opened it. -/
  | header
  /-- A dotted key made it. -/
  | dotted
  /-- A header of a table inside it made it. -/
  | implied
  deriving DecidableEq, Repr

/-- The value of a key in a document under construction. -/
inductive Slot where
  /-- A value that cannot be extended. -/
  | value (t : Tree)
  /-- A table. -/
  | table (origin : Origin) (fields : List (String × Slot))
  /-- A list of tables: those that are finished and the latest one. -/
  | tables (finished : List (List (String × Slot))) (latest : List (String × Slot))

/-- The keys of a table under construction. -/
abbrev Fields := List (String × Slot)

/-- Give a dotted key a value. Tables on the way are made as needed; only those that dotted keys
made may be extended, and the last key must be new. -/
def assign? (value : Tree) : List String → Fields → Option Fields
  | [], _ => none
  | [key], fields =>
    match Entries.get? fields key with
    | none => some (Entries.insert key (.value value) fields)
    | some _ => none
  | key :: path, fields =>
    match Entries.get? fields key with
    | none =>
      (assign? value path []).map fun inner => Entries.insert key (.table .dotted inner) fields
    | some (.table .dotted inner) =>
      (assign? value path inner).map fun inner => Entries.insert key (.table .dotted inner) fields
    | some _ => none

/-- Change the table that a path of keys leads to; of a list of tables the latest one is meant.
Tables on the way are made as needed. -/
def within? (change : Fields → Option Fields) : List String → Fields → Option Fields
  | [], fields => change fields
  | key :: path, fields =>
    match Entries.get? fields key with
    | none =>
      (within? change path []).map fun inner => Entries.insert key (.table .implied inner) fields
    | some (.table origin inner) =>
      (within? change path inner).map fun inner => Entries.insert key (.table origin inner) fields
    | some (.tables finished latest) =>
      (within? change path latest).map fun latest =>
        Entries.insert key (.tables finished latest) fields
    | some (.value _) => none

/-- Open the table of a key. A table may be opened once, and not if dotted keys made it. -/
def openHere? (key : String) (fields : Fields) : Option Fields :=
  match Entries.get? fields key with
  | none => some (Entries.insert key (.table .header []) fields)
  | some (.table .implied inner) => some (Entries.insert key (.table .header inner) fields)
  | some _ => none

/-- Add a table to the list of tables of a key. -/
def addHere? (key : String) (fields : Fields) : Option Fields :=
  match Entries.get? fields key with
  | none => some (Entries.insert key (.tables [] []) fields)
  | some (.tables finished latest) =>
    some (Entries.insert key (.tables (finished ++ [latest]) []) fields)
  | some _ => none

mutual

/-- The tree of a slot. -/
def Slot.tree : Slot → Tree
  | .value t => t
  | .table _ fields => .table (fieldTrees fields)
  | .tables finished latest => .list (tableTrees finished ++ [.table (fieldTrees latest)])

/-- The trees of the keys of a table. -/
def fieldTrees : List (String × Slot) → List (String × Tree)
  | [] => []
  | (key, slot) :: rest => (key, slot.tree) :: fieldTrees rest

/-- The trees of finished tables. -/
def tableTrees : List (List (String × Slot)) → List Tree
  | [] => []
  | fields :: rest => .table (fieldTrees fields) :: tableTrees rest

end

/-! ### Keys -/

/-- The character may stand in a key without quotes. -/
def isBare (c : Char) : Bool := c.isAlphanum || c = '_' || c = '-'

/-- One part of a key at the front. -/
def simpleKey? (cs : List Char) : Option (String × List Char) :=
  match cs with
  | '"' :: rest => basicBody? [] (rest.length + 1) rest
  | '\'' :: rest => literalBody? [] rest
  | _ =>
    let (bare, rest) := cs.span isBare
    if bare.isEmpty then none else some (String.ofList bare, rest)

/-- A key at the front: parts with dots between them, space around the dots being dropped. What
follows is returned without leading space. -/
def key? : Nat → List Char → Option (List String × List Char)
  | 0, _ => none
  | bound + 1, cs => do
    let (part, rest) ← simpleKey? (cs.dropWhile isSpace)
    match rest.dropWhile isSpace with
    | '.' :: rest' => do
      let (parts, left) ← key? bound rest'
      some (part :: parts, left)
    | rest' => some ([part], rest')

/-! ### Values -/

/-- What follows a comment at the front, up to the end of the line. -/
def comment? (cs : List Char) : Option (List Char) :=
  match cs with
  | '#' :: rest => some (rest.dropWhile isPlain)
  | _ => none

/-- Drop space, line breaks and comments at the front. -/
def skipLines : Nat → List Char → List Char
  | 0, cs => cs
  | bound + 1, cs =>
    let cs := cs.dropWhile isSpace
    match newline? cs with
    | some rest => skipLines bound rest
    | none =>
      match comment? cs with
      | some rest =>
        match newline? rest with
        | some rest' => skipLines bound rest'
        | none => cs
      | none => cs

/-- The items of a list behind its opening bracket or a comma, given how to read one. A comma may
follow the last item. -/
def items? (value? : List Char → Option (Tree × List Char)) (read : List Tree) :
    Nat → List Char → Option (Tree × List Char)
  | 0, _ => none
  | bound + 1, cs =>
    match skipLines cs.length cs with
    | ']' :: rest => some (.list read.reverse, rest)
    | cs => do
      let (t, rest) ← value? cs
      match skipLines rest.length rest with
      | ',' :: rest' => items? value? (t :: read) bound rest'
      | ']' :: rest' => some (.list (t :: read).reverse, rest')
      | _ => none

/-- The assignments of a table on one line behind its opening brace or a comma, given how to read a
value. No comma may follow the last one. -/
def assignments? (value? : List Char → Option (Tree × List Char)) (fields : Fields) :
    Nat → List Char → Option (Tree × List Char)
  | 0, _ => none
  | bound + 1, cs => do
    let (path, rest) ← key? cs.length cs
    match rest with
    | '=' :: rest' => do
      let (t, rest) ← value? (rest'.dropWhile isSpace)
      let fields ← assign? t path fields
      match rest.dropWhile isSpace with
      | ',' :: rest' => assignments? value? fields bound rest'
      | '}' :: rest' => some (.table (fieldTrees fields), rest')
      | _ => none
    | _ => none

/-- A value at the front, with a bound on how deep lists and tables may nest. -/
def value? : Nat → List Char → Option (Tree × List Char)
  | depth, cs =>
    match cs with
    | '[' :: rest =>
      match depth with
      | 0 => none
      | depth + 1 => items? (value? depth) [] (rest.length + 1) rest
    | '{' :: rest =>
      match depth with
      | 0 => none
      | depth + 1 =>
        match rest.dropWhile isSpace with
        | '}' :: rest' => some (.table [], rest')
        | rest' => assignments? (value? depth) [] (rest'.length + 1) rest'
    | _ => scalar? cs

/-- How deep lists and tables may nest inside a value. -/
def depth : Nat := 79

/-! ### Statements -/

/-- A statement of a document. -/
inductive Statement where
  | blank
  | assign (path : List String) (value : Tree)
  | openTable (path : List String)
  | addTable (path : List String)

/-- What follows a statement on its line: space, an optional comment, and the end of the line. -/
def lineEnd? (cs : List Char) : Option (List Char) :=
  let cs := cs.dropWhile isSpace
  let cs := (comment? cs).getD cs
  match cs with
  | [] => some []
  | _ => newline? cs

/-- The statement at the front, without the end of its line. -/
def statement? (cs : List Char) : Option (Statement × List Char) :=
  match cs.dropWhile isSpace with
  | [] => some (.blank, [])
  | '\n' :: rest => some (.blank, '\n' :: rest)
  | '\r' :: rest => some (.blank, '\r' :: rest)
  | '#' :: rest => some (.blank, '#' :: rest)
  | '[' :: '[' :: rest => do
    let (path, rest) ← key? rest.length rest
    match rest with
    | ']' :: ']' :: rest' => some (.addTable path, rest')
    | _ => none
  | '[' :: rest => do
    let (path, rest) ← key? rest.length rest
    match rest with
    | ']' :: rest' => some (.openTable path, rest')
    | _ => none
  | cs => do
    let (path, rest) ← key? cs.length cs
    match rest with
    | '=' :: rest' => do
      let (t, rest) ← value? depth (rest'.dropWhile isSpace)
      some (.assign path t, rest)
    | _ => none

/-- A document under construction: its tables and the path of the open one. -/
structure Draft where
  fields : Fields := []
  path : List String := []

/-- Carry out a statement. -/
def Draft.apply? (d : Draft) : Statement → Option Draft
  | .blank => some d
  | .assign path value =>
    (within? (assign? value path) d.path d.fields).map fun fields => { d with fields }
  | .openTable path =>
    path.getLast?.bind fun key =>
      (within? (openHere? key) path.dropLast d.fields).map fun fields => { fields, path }
  | .addTable path =>
    path.getLast?.bind fun key =>
      (within? (addHere? key) path.dropLast d.fields).map fun fields => { fields, path }

/-- Carry out the statements of a text one after the other. -/
def statements? (d : Draft) : Nat → List Char → Option Draft
  | 0, _ => none
  | bound + 1, cs => do
    let (s, rest) ← statement? cs
    let d ← d.apply? s
    let rest ← lineEnd? rest
    if rest.isEmpty then some d else statements? d bound rest

/-- The tree of a document, if the text is one. A byte order mark may open it. -/
def read? (text : String) : Option Tree :=
  let cs := match text.toList with
    | '\uFEFF' :: rest => rest
    | cs => cs
  (statements? {} (cs.length + 1) cs).map fun d => .table (fieldTrees d.fields)

end Toml

end KeyIntake
