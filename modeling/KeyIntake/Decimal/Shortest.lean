import KeyIntake.Decimal.Binary64
/-!
# Shortest decimal fractions

The digits that stand for a floating-point value are the fewest that read back as the same value; of
those the ones nearest to it.

## Main definitions

* `Decimal` — digits and the position of the point.
* `Decimal.shortest` — the shortest decimal of a finite value.
-/

set_option autoImplicit false

namespace KeyIntake

/-- A decimal fraction in scientific form: its first digit stands before the point and the power of
ten is given. -/
structure Decimal where
  digits : List Char
  exponent : Int
  deriving DecidableEq, Repr

namespace Decimal

/-- The number of factors of ten, up to a bound, that lift a number to at least another one. -/
def liftCount (num den : Nat) : Nat → Nat
  | 0 => 0
  | bound + 1 => if den ≤ num then 0 else liftCount (num * 10) den bound + 1

/-- The exponent of the largest power of ten that does not exceed the positive quotient of two
numbers. -/
def floorLog10 (num den : Nat) : Int :=
  if den ≤ num then ((Nat.toDigits 10 (num / den)).length : Int) - 1
  else -(liftCount num den 400 : Int)

/-- A quotient in units of a power of ten: the whole units, and twice the remainder against the
size of a unit. -/
def units (num den : Nat) (power : Int) : Nat × Nat × Nat :=
  let n := if power < 0 then num * Nat.pow 10 power.natAbs else num
  let d := if power < 0 then den else den * Nat.pow 10 power.natAbs
  (n / d, 2 * (n % d), d)

/-- The digits of a whole number of units without trailing zeros, as a decimal. -/
def ofUnits (count : Nat) (power : Int) : Decimal :=
  let digits := Nat.toDigits 10 count
  { digits :=
      match (digits.reverse.dropWhile (· == '0')).reverse with
      | [] => ['0']
      | kept => kept
    exponent := power + (digits.length : Int) - 1 }

/-- The neighbours of a quotient on the grid of a power of ten, the nearer one first; on a tie the
even one comes first. -/
def neighbours (num den : Nat) (power : Int) : List Nat :=
  let (low, twice, unit) := units num den power
  if twice = 0 then [low]
  else if twice < unit then [low, low + 1]
  else if unit < twice then [low + 1, low]
  else if low % 2 = 0 then [low, low + 1] else [low + 1, low]

/-- Search the grids of more and more digits for a neighbour that reads back as the value. -/
def search (x : Binary64) (num den : Nat) (top : Int) (places : Nat) : Nat → Decimal
  | 0 => ofUnits 0 0
  | bound + 1 =>
    let power := top - (places : Int)
    let readsBack (n : Nat) : Bool := Binary64.ofDecimal x.isNegative n power == x
    match (neighbours num den power).find? readsBack with
    | some n => ofUnits n power
    | none => search x num den top (places + 1) bound

/-- The shortest decimal that reads back as the absolute value of a finite value. -/
def shortest (negative : Bool) (significand : Nat) (exponent : Int) : Decimal :=
  if significand = 0 then ofUnits 0 0
  else
    let num := if exponent < 0 then significand else significand * Nat.pow 2 exponent.natAbs
    let den := if exponent < 0 then Nat.pow 2 exponent.natAbs else 1
    search (.finite negative significand exponent) num den (floorLog10 num den) 0 18

end Decimal

end KeyIntake
