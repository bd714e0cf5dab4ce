/-!
# Digits and numerals

## Main definitions

* `Text.hexValue?` — the value of one digit.
* `Text.numeralIn?` — reads a run of digits in a base.
* `Text.numeral?` — the number that a non-empty run of decimal digits denotes.
* `Text.decimal` — the shortest numeral of a number.
-/

set_option autoImplicit false

namespace KeyIntake

namespace Text

/-- The value of a hexadecimal digit of either case. -/
def hexValue? (c : Char) : Option Nat :=
  if '0' ≤ c ∧ c ≤ '9' then some (c.toNat - '0'.toNat)
  else if 'a' ≤ c ∧ c ≤ 'f' then some (c.toNat - 'a'.toNat + 10)
  else if 'A' ≤ c ∧ c ≤ 'F' then some (c.toNat - 'A'.toNat + 10)
  else none

/-- Read digits of a base on top of the number read so far. A character that is no digit of the
base makes the whole text no numeral. -/
def numeralIn? (base : Nat) (read : Nat) : List Char → Option Nat
  | [] => some read
  | c :: cs =>
    match hexValue? c with
    | some d => if d < base then numeralIn? base (read * base + d) cs else none
    | none => none

/-- The number that a non-empty run of decimal digits denotes. -/
def numeral? (cs : List Char) : Option Nat :=
  if cs.isEmpty then none else numeralIn? 10 0 cs

/-- A number in decimal without leading zeros. -/
def decimal (n : Nat) : String := String.ofList (Nat.toDigits 10 n)

/-- A whole number in decimal, with a minus sign when it is negative. -/
def signedDecimal (i : Int) : String :=
  if i < 0 then "-" ++ decimal i.natAbs else decimal i.natAbs

end Text

end KeyIntake
