import KeyIntake.Text.Digits
import KeyIntake.Text.Printable
/-!
# Quoted texts

Two ways to write a text between quotes. The first shows it to a reader: everything that is not
printable is escaped. The second is the notation of JSON: only what that notation demands is
escaped.

## Main definitions

* `Quoted.shown`, `Quoted.shownChar` — a text or a character as shown in messages.
* `Quoted.shownOption`, `Quoted.shownRecord` — optional texts and records as shown in messages.
* `Quoted.json` — a text in JSON.
-/

set_option autoImplicit false

namespace KeyIntake

namespace Quoted

/-- A character inside a shown text with the given quote. -/
def shownInside (quote c : Char) : List Char :=
  if c = '\x00' then ['\\', '0']
  else if c = '\t' then ['\\', 't']
  else if c = '\r' then ['\\', 'r']
  else if c = '\n' then ['\\', 'n']
  else if c = '\\' then ['\\', '\\']
  else if c = quote then ['\\', c]
  else if Text.isPrintable c then [c]
  else "\\u\x7b".toList ++ Nat.toDigits 16 c.toNat ++ ['}']

/-- A text between double quotes, as shown in messages. -/
def shown (s : String) : String :=
  String.ofList ('"' :: (s.toList.flatMap (shownInside '"') ++ ['"']))

/-- A character between single quotes, as shown in messages. -/
def shownChar (c : Char) : String :=
  String.ofList ('\'' :: (shownInside '\'' c ++ ['\'']))

/-- An optional text as shown in messages. -/
def shownOption : Option String → String
  | none => "None"
  | some s => "Some(" ++ shown s ++ ")"

/-- A record as shown in messages: its name and its fields, which are shown already. -/
def shownRecord (name : String) (fields : List (String × String)) : String :=
  name ++ " \x7b " ++ ", ".intercalate (fields.map fun f => f.1 ++ ": " ++ f.2) ++ " \x7d"

/-- A character inside a JSON string. -/
def jsonInside (c : Char) : List Char :=
  if c = '"' then ['\\', '"']
  else if c = '\\' then ['\\', '\\']
  else if c = '\x08' then ['\\', 'b']
  else if c = '\x0c' then ['\\', 'f']
  else if c = '\n' then ['\\', 'n']
  else if c = '\r' then ['\\', 'r']
  else if c = '\t' then ['\\', 't']
  else if c.toNat < 0x20 then
    ['\\', 'u', '0', '0', Nat.digitChar (c.toNat / 16), Nat.digitChar (c.toNat % 16)]
  else [c]

/-- A text as a JSON string. -/
def json (s : String) : String :=
  String.ofList ('"' :: (s.toList.flatMap jsonInside ++ ['"']))

end Quoted

end KeyIntake
