import KeyIntake.Toml.Quote
import KeyIntake.Tree
import KeyIntake.Word
/-!
# Scalars in TOML

Numbers, truth values and moments in time. A moment is kept as a table with one field, which holds
its text.

## Main definitions

* `Toml.integer?`, `Toml.float?`, `Toml.special?` — numbers.
* `Toml.moment?` — dates, times and both together.
* `Toml.scalar?` — any scalar at the front.
-/

set_option autoImplicit false

namespace KeyIntake

namespace Toml

/-! ### Numbers -/

/-- The character is a digit of a base. -/
def isDigitOf (base : Nat) (c : Char) : Bool :=
  match Text.hexValue? c with
  | some d => d < base
  | none => false

/-- A run of digits at the front, single underscores between digits being dropped. -/
def digitRun (isDigit : Char → Bool) : List Char → List Char × List Char
  | [] => ([], [])
  | [c] => if isDigit c then ([c], []) else ([], [c])
  | c :: d :: rest =>
    if isDigit c then
      if d = '_' then
        match rest with
        | e :: rest' =>
          if isDigit e then
            let (digits, left) := digitRun isDigit (e :: rest')
            (c :: digits, left)
          else ([c], d :: rest)
        | [] => ([c], [d])
      else
        let (digits, left) := digitRun isDigit (d :: rest)
        (c :: digits, left)
    else ([], c :: d :: rest)

/-- The sign at the front: whether there is one, and whether it is a minus. -/
def sign : List Char → Bool × Bool × List Char
  | '+' :: rest => (true, false, rest)
  | '-' :: rest => (true, true, rest)
  | cs => (false, false, cs)

/-- A run of decimal digits at the front that has no leading zero. -/
def decimalRun? (cs : List Char) : Option (List Char × List Char) :=
  match cs with
  | '0' :: rest => some (['0'], rest)
  | _ =>
    let (digits, rest) := digitRun (isDigitOf 10) cs
    if digits.isEmpty then none else some (digits, rest)

/-- The whole number of digits in a base, if it is a signed word. -/
def wholeNumber? (base : Nat) (negative : Bool) (digits : List Char) : Option Tree := do
  let n ← Text.numeralIn? base 0 digits
  if negative then if n ≤ Word.signedLimit then some (.signed (-(n : Int))) else none
  else if n < Word.signedLimit then some (.signed n) else none

/-- A whole number in a base other than ten, behind its marker. -/
def basedInteger? (base : Nat) (cs : List Char) : Option (Tree × List Char) :=
  let (digits, rest) := digitRun (isDigitOf base) cs
  if digits.isEmpty then none else (wholeNumber? base false digits).map (·, rest)

/-- A whole number at the front. -/
def integer? (cs : List Char) : Option (Tree × List Char) :=
  match cs with
  | '0' :: 'x' :: rest => basedInteger? 16 rest
  | '0' :: 'o' :: rest => basedInteger? 8 rest
  | '0' :: 'b' :: rest => basedInteger? 2 rest
  | _ => do
    let (_, negative, rest) := sign cs
    let (digits, rest) ← decimalRun? rest
    (wholeNumber? 10 negative digits).map (·, rest)

/-- The exponent of a number at the front: `e`, an optional sign and digits. -/
def exponent? : List Char → Option (Int × List Char)
  | c :: rest =>
    if c = 'e' ∨ c = 'E' then
      let (_, negative, rest) := sign rest
      let (digits, rest) := digitRun (isDigitOf 10) rest
      if digits.isEmpty then none
      else
        let n : Int := (Text.numeralIn? 10 0 digits).getD 0
        some (if negative then -n else n, rest)
    else none
  | [] => none

/-- The fraction of a number at the front: a point and digits. -/
def fraction? : List Char → Option (List Char × List Char)
  | '.' :: rest =>
    let (digits, rest) := digitRun (isDigitOf 10) rest
    if digits.isEmpty then none else some (digits, rest)
  | _ => none

/-- A number with a fraction, an exponent or both at the front. A positive number beyond all finite
values is refused. -/
def float? (cs : List Char) : Option (Tree × List Char) := do
  let (_, negative, rest) := sign cs
  let (whole, rest) ← decimalRun? rest
  let (fraction, exponent, rest) ←
    match fraction? rest with
    | some (fraction, rest) =>
      match exponent? rest with
      | some (e, rest) => some (fraction, e, rest)
      | none => some (fraction, 0, rest)
    | none => (exponent? rest).map fun (e, rest) => ([], e, rest)
  let digits := (Text.numeralIn? 10 0 (whole ++ fraction)).getD 0
  match Binary64.ofDecimal negative digits (exponent - (fraction.length : Int)) with
  | .infinite false => none
  | x => some (.float x, rest)

/-- Infinity or no number at the front. -/
def special? (cs : List Char) : Option (Tree × List Char) :=
  let (_, negative, rest) := sign cs
  match rest with
  | 'i' :: 'n' :: 'f' :: rest' => some (.float (.infinite negative), rest')
  | 'n' :: 'a' :: 'n' :: rest' => some (.float .nan, rest')
  | _ => none

/-! ### Moments -/

/-- A number of exactly so many digits at the front. -/
def fixedDigits? (n : Nat) (cs : List Char) : Option (Nat × List Char) :=
  let digits := cs.take n
  if digits.length = n ∧ digits.all (isDigitOf 10) then
    (Text.numeralIn? 10 0 digits).map (·, cs.drop n)
  else none

/-- A given character at the front. -/
def expect? (c : Char) : List Char → Option (List Char)
  | d :: rest => if c = d then some rest else none
  | [] => none

/-- The number of days of a month. -/
def monthLength (year month : Nat) : Nat :=
  let leap := year % 4 = 0 ∧ (year % 100 ≠ 0 ∨ year % 400 = 0)
  match month with
  | 2 => if leap then 29 else 28
  | 4 | 6 | 9 | 11 => 30
  | _ => 31

/-- What follows a date at the front. -/
def date? (cs : List Char) : Option (List Char) := do
  let (year, rest) ← fixedDigits? 4 cs
  let rest ← expect? '-' rest
  let (month, rest) ← fixedDigits? 2 rest
  let rest ← expect? '-' rest
  let (day, rest) ← fixedDigits? 2 rest
  if 1 ≤ month ∧ month ≤ 12 ∧ 1 ≤ day ∧ day ≤ monthLength year month then some rest else none

/-- What follows a time of day at the front. The fraction of a second may have any number of
digits. -/
def time? (cs : List Char) : Option (List Char) := do
  let (hour, rest) ← fixedDigits? 2 cs
  let rest ← expect? ':' rest
  let (minute, rest) ← fixedDigits? 2 rest
  let rest ← expect? ':' rest
  let (second, rest) ← fixedDigits? 2 rest
  if 23 < hour ∨ 59 < minute ∨ 60 < second then none
  else
    match rest with
    | '.' :: fraction =>
      let left := fraction.dropWhile (isDigitOf 10)
      if left.length = fraction.length then some rest else some left
    | _ => some rest

/-- What follows an optional offset from universal time at the front. -/
def offset? (cs : List Char) : Option (List Char) :=
  match cs with
  | c :: rest =>
    if c = 'Z' ∨ c = 'z' then some rest
    else if c = '+' ∨ c = '-' then do
      let (hour, rest) ← fixedDigits? 2 rest
      let rest ← expect? ':' rest
      let (minute, rest) ← fixedDigits? 2 rest
      if 23 < hour ∨ 59 < minute then none else some rest
    else some cs
  | [] => some cs

/-- What follows a moment at the front: a date, a time of day, or a date and a time with a `T` or a
space between them and an optional offset. -/
def momentEnd? (cs : List Char) : Option (List Char) :=
  match date? cs with
  | none => time? cs
  | some rest =>
    match rest with
    | c :: rest' =>
      if c = 'T' ∨ c = 't' ∨ c = ' ' then
        match time? rest' with
        | some left => offset? left
        | none => some rest
      else some rest
    | [] => some rest

/-- The field that holds the text of a moment. -/
def momentField : String := "$__toml_private_datetime"

/-- A moment at the front. -/
def moment? (cs : List Char) : Option (Tree × List Char) :=
  (momentEnd? cs).map fun rest =>
    (.table [(momentField, .text (String.ofList (cs.take (cs.length - rest.length))))], rest)

/-! ### Any scalar -/

/-- A scalar at the front: a text, a truth value, a moment or a number. -/
def scalar? (cs : List Char) : Option (Tree × List Char) :=
  match cs with
  | '"' :: _ => (quoted? cs).map fun p => (.text p.1, p.2)
  | '\'' :: _ => (quoted? cs).map fun p => (.text p.1, p.2)
  | 't' :: 'r' :: 'u' :: 'e' :: rest => some (.bool true, rest)
  | 'f' :: 'a' :: 'l' :: 's' :: 'e' :: rest => some (.bool false, rest)
  | _ => special? cs <|> moment? cs <|> float? cs <|> integer? cs

end Toml

end KeyIntake
