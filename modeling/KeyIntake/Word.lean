import KeyIntake.Text.Digits
/-!
# Words of 64 bits

Sizes, limits and versions are unsigned words. They are kept as natural numbers; this module says
which numbers are words and which texts denote one.

## Main definitions

* `Word.limit`, `Word.largest` — the range of unsigned words.
* `Word.clamp` — the largest word that does not exceed a number.
* `Word.ofText?`, `Word.ofSignedText?` — the accepted spellings.
-/

set_option autoImplicit false

namespace KeyIntake

namespace Word

/-- Unsigned words lie below this number. -/
def limit : Nat := Nat.pow 2 64

/-- The largest unsigned word. -/
def largest : Nat := limit - 1

/-- Signed words lie below this number, and at or above its opposite. -/
def signedLimit : Nat := Nat.pow 2 63

/-- The largest word that does not exceed a number. -/
def clamp (n : Nat) : Nat := min n largest

/-- An unsigned word in decimal: an optional plus sign, then a non-empty run of digits (leading
zeros included) whose value is a word. -/
def ofText? (cs : List Char) : Option Nat :=
  let digits := match cs with
    | '+' :: rest => rest
    | _ => cs
  (Text.numeral? digits).filter (· < limit)

/-- A signed word in decimal: an optional sign, then a non-empty run of digits whose value is in
range. -/
def ofSignedText? (cs : List Char) : Option Int :=
  match cs with
  | '-' :: rest => ((Text.numeral? rest).filter (· ≤ signedLimit)).map fun n => -(n : Int)
  | _ => ((ofText? cs).filter (· < signedLimit)).map fun n => (n : Int)

end Word

end KeyIntake
