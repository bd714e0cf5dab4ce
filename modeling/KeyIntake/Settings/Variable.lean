import KeyIntake.Text.Blank
import KeyIntake.Toml.Quote
import KeyIntake.Tree
import KeyIntake.Word
/-!
# Settings in environment variables

A variable whose name begins with `KEYLOADER_` sets one setting: the rest of its name is the path of
the setting, with two underscores between the keys. Its value is read as a tree in a small notation
of its own. A value that is not written in the notation from its first character to its last stands
for itself as a text.

## Main definitions

* `Environment` — variables in the order in which they were first set.
* `Variable.path?` — the path that a variable's name stands for.
* `Variable.value` — the tree that a variable's value stands for.
* `Environment.settings` — the settings that an environment holds.
-/

set_option autoImplicit false

namespace KeyIntake

namespace Variable

/-! ### Names -/

/-- The mark of the variables that hold settings. -/
def mark : String := "KEYLOADER_"

/-- A text behind a mark, the case of ASCII letters being ignored. -/
def dropMark? : List Char → List Char → Option (List Char)
  | [], cs => some cs
  | m :: ms, c :: cs => if m.toLower = c.toLower then dropMark? ms cs else none
  | _ :: _, [] => none

/-- A text with a point in place of each two underscores. -/
def pointed : List Char → List Char
  | '_' :: '_' :: rest => '.' :: pointed rest
  | c :: rest => c :: pointed rest
  | [] => []

/-- What stands between the points of a text. -/
def parts : List Char → List (List Char)
  | [] => [[]]
  | c :: cs =>
    if c = '.' then [] :: parts cs
    else match parts cs with
      | [] => [[c]]
      | p :: ps => (c :: p) :: ps

/-- The path that a variable's name stands for: the parts of its name in lower case. A name with an
empty part stands for nothing. -/
def path? (name : String) : Option (List String) := do
  let rest ← dropMark? mark.toList (Text.trim name.toList)
  let keys := parts (Text.trim (pointed rest))
  if keys.any List.isEmpty then none
  else some (keys.map fun key => String.ofList (key.map Char.toLower))

/-! ### Values -/

/-- The space that may surround values and keys. -/
def isSpace (c : Char) : Bool :=
  c = ' ' || c = '\t' || c = '\n' || c = '\x0c' || c = '\r'

/-- The characters that end a bare value. -/
def isSeparator (c : Char) : Bool := c = ',' || c = '{' || c = '}' || c = '[' || c = ']'

/-- The characters of a bare key. -/
def isKeyChar (c : Char) : Bool := c.isAlphanum || c = '_' || c = '-'

/-- The exponent of a number, up to its end: none, or `e`, an optional sign and digits. -/
def exponent? : List Char → Option Int
  | [] => some 0
  | c :: rest =>
    if c = 'e' ∨ c = 'E' then
      match rest with
      | '-' :: digits => (Text.numeral? digits).map fun n => -(n : Int)
      | '+' :: digits => (Text.numeral? digits).map fun n => (n : Int)
      | digits => (Text.numeral? digits).map fun n => (n : Int)
    else none

/-- The number with a point that a text is: digits on at least one side of the point, and an
optional exponent. -/
def float? (cs : List Char) : Option Binary64 :=
  let (negative, rest) := match cs with
    | '-' :: rest => (true, rest)
    | '+' :: rest => (false, rest)
    | _ => (false, cs)
  let (whole, rest) := rest.span Char.isDigit
  match rest with
  | '.' :: rest =>
    let (fraction, rest) := rest.span Char.isDigit
    if whole.isEmpty ∧ fraction.isEmpty then none
    else
      (exponent? rest).map fun e =>
        .ofDecimal negative ((Text.numeralIn? 10 0 (whole ++ fraction)).getD 0)
          (e - (fraction.length : Int))
  | _ => none

/-- What a bare value stands for: a number with a point, a word, a signed word, or itself. -/
def bare (cs : List Char) : Tree :=
  match if cs.contains '.' then float? cs else none with
  | some x => .float x
  | none =>
    match Word.ofText? cs with
    | some n => .unsigned n
    | none =>
      match Word.ofSignedText? cs with
      | some i => .signed i
      | none => .text (String.ofList cs)

/-- The items of a list behind its opening bracket or a comma, given how to read one. -/
def items? (value? : List Char → Option (Tree × List Char)) (read : List Tree) :
    Nat → List Char → Option (Tree × List Char)
  | 0, _ => none
  | _ + 1, ']' :: rest => some (.list read.reverse, rest)
  | bound + 1, cs => do
    let (t, rest) ← value? cs
    match rest with
    | ',' :: rest' => items? value? (t :: read) bound rest'
    | ']' :: rest' => some (.list (t :: read).reverse, rest')
    | _ => none

/-- A key at the front. -/
def key? (cs : List Char) : Option (String × List Char) :=
  match cs with
  | '"' :: rest => Toml.basicBody? [] (rest.length + 1) rest
  | _ =>
    let (key, rest) := cs.span isKeyChar
    if key.isEmpty then none else some (String.ofList key, rest)

/-- The fields of a table behind its opening brace or a comma, given how to read a value. -/
def fields? (value? : List Char → Option (Tree × List Char)) (read : List (String × Tree)) :
    Nat → List Char → Option (Tree × List Char)
  | 0, _ => none
  | _ + 1, '}' :: rest => some (.table read, rest)
  | bound + 1, cs => do
    let (key, rest) ← key? (cs.dropWhile isSpace)
    match rest.dropWhile isSpace with
    | '=' :: rest => do
      let (t, rest) ← value? rest
      match rest with
      | ',' :: rest' => fields? value? (Entries.insert key t read) bound rest'
      | '}' :: rest' => some (.table (Entries.insert key t read), rest')
      | _ => none
    | _ => none

/-- A value at the front without the space around it, with a bound on how deep lists and tables may
nest. -/
def value? : Nat → List Char → Option (Tree × List Char)
  | depth, cs =>
    let found : Option (Tree × List Char) := match cs.dropWhile isSpace with
      | 't' :: 'r' :: 'u' :: 'e' :: rest => some (.bool true, rest)
      | 'f' :: 'a' :: 'l' :: 's' :: 'e' :: rest => some (.bool false, rest)
      | '{' :: rest =>
        match depth with
        | 0 => none
        | depth + 1 => fields? (value? depth) [] (rest.length + 1) rest
      | '[' :: rest =>
        match depth with
        | 0 => none
        | depth + 1 => items? (value? depth) [] (rest.length + 1) rest
      | '"' :: rest => (Toml.basicBody? [] (rest.length + 1) rest).map fun p => (.text p.1, p.2)
      | '\'' :: c :: '\'' :: rest => some (.text (String.singleton c), rest)
      | '\'' :: _ => none
      | rest =>
        let (run, left) := rest.span fun c => !isSeparator c
        some (bare (Text.trim run), left)
    found.map fun p => (p.1, p.2.dropWhile isSpace)

/-- The tree that a variable's value stands for. -/
def value (s : String) : Tree :=
  match value? s.toList.length s.toList with
  | some (t, []) => t
  | _ => .text s

/-- A tree at the end of a path of tables. -/
def nest : List String → Tree → Tree
  | [], t => t
  | key :: path, t => .table [(key, nest path t)]

end Variable

/-- Variables with their values, in the order in which they were first set. -/
structure Environment where
  bindings : List (String × String) := []
  deriving DecidableEq, Repr

namespace Environment

/-- The value of a variable. -/
def get? (e : Environment) (name : String) : Option String := List.lookup name e.bindings

/-- Set a variable. A variable that was set before keeps its place. -/
def set (e : Environment) (name value : String) : Environment :=
  if (e.get? name).isSome then
    ⟨e.bindings.map fun v => if v.1 = name then (name, value) else v⟩
  else ⟨e.bindings ++ [(name, value)]⟩

/-- Set variables one after the other. -/
def ofPairs (pairs : List (String × String)) : Environment :=
  pairs.foldl (fun e p => e.set p.1 p.2) {}

/-- The settings that the variables hold, later variables over earlier ones. -/
def settings (e : Environment) : Tree :=
  .layer (e.bindings.filterMap fun v =>
    (Variable.path? v.1).map fun path => Variable.nest path (Variable.value v.2))

end Environment

end KeyIntake
