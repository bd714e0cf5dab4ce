import KeyIntake.Decimal.Notation
import KeyIntake.Text.Quoted
import KeyIntake.Tree
import KeyIntake.Word
/-!
# Trees in JSON

## Main definitions

* `Json.write` — the compact JSON text of a tree, fields by increasing key.
* `Json.read?` — the tree of a JSON text.

## Design

The reader nests at most `Json.depth` lists and tables. It recurs on the depth that is left;
inside a list or a table it loops over a bound on the number of elements, which the length of the
text gives.
-/

set_option autoImplicit false

namespace KeyIntake

namespace Json

/-! ### Writing -/

mutual

/-- The compact text of a tree. -/
def write : Tree → String
  | .null => "null"
  | .bool b => if b then "true" else "false"
  | .unsigned n => Text.decimal n
  | .signed i => Text.signedDecimal i
  | .float x => floatText x
  | .text s => Quoted.json s
  | .list items => "[" ++ writeItems items ++ "]"
  | .table fields => "\x7b" ++ writeFields fields ++ "\x7d"

/-- The texts of items, between commas. -/
def writeItems : List Tree → String
  | [] => ""
  | [t] => write t
  | t :: u :: rest => write t ++ "," ++ writeItems (u :: rest)

/-- The texts of fields, between commas. -/
def writeFields : List (String × Tree) → String
  | [] => ""
  | [(k, t)] => Quoted.json k ++ ":" ++ write t
  | (k, t) :: f :: rest => Quoted.json k ++ ":" ++ write t ++ "," ++ writeFields (f :: rest)

/-- A floating-point value; JSON has no text for one that is not finite. -/
def floatText : Binary64 → String
  | .nan => "null"
  | .infinite _ => "null"
  | x => x.scientific

end

/-! ### Reading -/

/-- The characters that may stand between tokens. -/
def isSpace (c : Char) : Bool := c = ' ' || c = '\t' || c = '\n' || c = '\r'

/-- A text without leading space. -/
def skip (cs : List Char) : List Char := cs.dropWhile isSpace

/-- The value of four hexadecimal digits. -/
def hex4? (a b c d : Char) : Option Nat := Text.numeralIn? 16 0 [a, b, c, d]

/-- The character that a backslash and a letter stand for. -/
def escape? : Char → Option Char
  | '"' => some '"'
  | '\\' => some '\\'
  | '/' => some '/'
  | 'b' => some '\x08'
  | 'f' => some '\x0c'
  | 'n' => some '\n'
  | 'r' => some '\r'
  | 't' => some '\t'
  | _ => none

/-- The rest of a string behind its opening quote, on top of the characters read so far, latest
first. Two surrogates make one character; a surrogate alone is an error. -/
def stringBody? (read : List Char) : List Char → Option (String × List Char)
  | [] => none
  | '"' :: rest => some (String.ofList read.reverse, rest)
  | '\\' :: 'u' :: a :: b :: c :: d :: rest =>
    match hex4? a b c d with
    | none => none
    | some n =>
      if n < 0xD800 ∨ 0xDFFF < n then stringBody? (Char.ofNat n :: read) rest
      else if 0xDBFF < n then none
      else
        match rest with
        | '\\' :: 'u' :: e :: f :: g :: h :: rest' =>
          match hex4? e f g h with
          | none => none
          | some m =>
            if 0xDC00 ≤ m ∧ m ≤ 0xDFFF then
              stringBody?
                (Char.ofNat (0x10000 + (n - 0xD800) * 0x400 + (m - 0xDC00)) :: read) rest'
            else none
        | _ => none
  | '\\' :: c :: rest =>
    match escape? c with
    | some e => stringBody? (e :: read) rest
    | none => none
  | c :: rest => if c.toNat < 0x20 then none else stringBody? (c :: read) rest

/-- The longest run of digits at the front, and what follows. -/
def digitRun (cs : List Char) : List Char × List Char := cs.span Char.isDigit

/-- The number that a run of digits denotes. -/
def digitsValue (cs : List Char) : Nat := (Text.numeralIn? 10 0 cs).getD 0

/-- The fraction at the front: none, or a point and at least one digit. -/
def fraction? : List Char → Option (List Char × List Char)
  | '.' :: rest =>
    let (digits, rest') := digitRun rest
    if digits.isEmpty then none else some (digits, rest')
  | cs => some ([], cs)

/-- The exponent at the front: none, or `e`, an optional sign and at least one digit. -/
def exponent? : List Char → Option (Option Int × List Char)
  | c :: rest =>
    if c = 'e' ∨ c = 'E' then
      let (negative, rest) := match rest with
        | '-' :: r => (true, r)
        | '+' :: r => (false, r)
        | r => (false, r)
      let (digits, rest') := digitRun rest
      if digits.isEmpty then none
      else
        let n : Int := digitsValue digits
        some (some (if negative then -n else n), rest')
    else some (none, c :: rest)
  | [] => some (none, [])

/-- A whole number: a word if it is one, else the nearest floating-point value. -/
def wholeNumber (negative : Bool) (n : Nat) : Tree :=
  if negative then
    if 0 < n ∧ n ≤ Word.signedLimit then .signed (-(n : Int)) else .float (.ofDecimal true n 0)
  else if n < Word.limit then .unsigned n
  else .float (.ofDecimal false n 0)

/-- A number at the front, its sign being read already. A number that no finite floating-point value
is near to is an error. -/
def number? (negative : Bool) (cs : List Char) : Option (Tree × List Char) := do
  let (whole, rest) := digitRun cs
  if whole.isEmpty ∨ (whole.head? = some '0' ∧ 1 < whole.length) then none
  else
    let (fraction, rest) ← fraction? rest
    let (exponent, rest) ← exponent? rest
    let tree :=
      if fraction.isEmpty ∧ exponent.isNone then wholeNumber negative (digitsValue whole)
      else
        .float (.ofDecimal negative (digitsValue (whole ++ fraction))
          (exponent.getD 0 - (fraction.length : Int)))
    match tree with
    | .float (.infinite _) => none
    | _ => some (tree, rest)

/-- The items of a list behind its opening bracket or a comma, given how to read one. -/
def items? (value? : List Char → Option (Tree × List Char)) (read : List Tree) :
    Nat → List Char → Option (List Tree × List Char)
  | 0, _ => none
  | bound + 1, cs => do
    let (t, rest) ← value? cs
    match skip rest with
    | ',' :: rest' => items? value? (t :: read) bound rest'
    | ']' :: rest' => some ((t :: read).reverse, rest')
    | _ => none

/-- The fields of a table behind its opening brace or a comma, given how to read a value. -/
def fields? (value? : List Char → Option (Tree × List Char)) (read : List (String × Tree)) :
    Nat → List Char → Option (List (String × Tree) × List Char)
  | 0, _ => none
  | bound + 1, cs =>
    match skip cs with
    | '"' :: rest => do
      let (key, rest) ← stringBody? [] rest
      match skip rest with
      | ':' :: rest => do
        let (t, rest) ← value? rest
        match skip rest with
        | ',' :: rest' => fields? value? (Entries.insert key t read) bound rest'
        | '}' :: rest' => some (Entries.insert key t read, rest')
        | _ => none
      | _ => none
    | _ => none

/-- A value at the front, with a bound on how deep lists and tables may nest. -/
def value? : Nat → List Char → Option (Tree × List Char)
  | depth, cs =>
    match skip cs with
    | 'n' :: 'u' :: 'l' :: 'l' :: rest => some (.null, rest)
    | 't' :: 'r' :: 'u' :: 'e' :: rest => some (.bool true, rest)
    | 'f' :: 'a' :: 'l' :: 's' :: 'e' :: rest => some (.bool false, rest)
    | '"' :: rest => (stringBody? [] rest).map fun p => (.text p.1, p.2)
    | '-' :: rest => number? true rest
    | '[' :: rest =>
      match depth with
      | 0 => none
      | depth + 1 =>
        match skip rest with
        | ']' :: rest' => some (.list [], rest')
        | rest' => (items? (value? depth) [] rest'.length rest').map fun p => (.list p.1, p.2)
    | '{' :: rest =>
      match depth with
      | 0 => none
      | depth + 1 =>
        match skip rest with
        | '}' :: rest' => some (.table [], rest')
        | rest' => (fields? (value? depth) [] rest'.length rest').map fun p => (.table p.1, p.2)
    | c :: rest => if c.isDigit then number? false (c :: rest) else none
    | [] => none

/-- How deep lists and tables may nest. -/
def depth : Nat := 127

/-- The tree of a JSON text. Nothing but space may follow the value. -/
def read? (text : String) : Option Tree := do
  let (t, rest) ← value? depth text.toList
  if (skip rest).isEmpty then some t else none

end Json

end KeyIntake
