/-!
# Binary floating-point numbers of 64 bits

Numbers with a fractional part occur in settings only to be refused, but the refusal shows them.
They are kept as exact values: a significand times a power of two. Rounding is to the nearest such
value, ties to an even significand.

## Main definitions

* `Binary64` — the values.
* `Binary64.ofRatio` — the value nearest to a quotient of natural numbers.
* `Binary64.ofDecimal` — the value nearest to a decimal fraction.
-/

set_option autoImplicit false

namespace KeyIntake

/-- A floating-point value: not a number, infinite, or a significand times a power of two. -/
inductive Binary64 where
  | nan
  | infinite (negative : Bool)
  | finite (negative : Bool) (significand : Nat) (exponent : Int)
  deriving DecidableEq, Repr

namespace Binary64

/-- Significands lie below this number. -/
def significandLimit : Nat := Nat.pow 2 53

/-- The least exponent. -/
def leastExponent : Int := -1074

/-- The largest exponent. -/
def largestExponent : Int := 971

/-- The quotient rounded to the nearest natural number, ties to even. -/
def roundQuotient (num den : Nat) : Nat :=
  let q := num / den
  let r := num % den
  if 2 * r < den then q
  else if den < 2 * r then q + 1
  else if q % 2 = 0 then q else q + 1

/-- The quotient of `num · 2 ^ (-e)` and `den`, rounded. -/
def scaledQuotient (num den : Nat) (e : Int) : Nat :=
  if e < 0 then roundQuotient (num * Nat.pow 2 e.natAbs) den
  else roundQuotient num (den * Nat.pow 2 e.natAbs)

/-- The exponent of the largest power of two that does not exceed the positive quotient of two
numbers. -/
def floorLog2 (num den : Nat) : Int :=
  let guess : Int := (num.log2 : Int) - (den.log2 : Int)
  let reaches : Bool :=
    if guess < 0 then den ≤ num * Nat.pow 2 guess.natAbs else den * Nat.pow 2 guess.natAbs ≤ num
  if reaches then guess else guess - 1

/-- The value nearest to the quotient of two numbers. -/
def ofRatio (negative : Bool) (num den : Nat) : Binary64 :=
  if num = 0 then finite negative 0 leastExponent
  else
    let e := max leastExponent (floorLog2 num den - 52)
    let m := scaledQuotient num den e
    let (m, e) := if m < significandLimit then (m, e) else (m / 2, e + 1)
    if largestExponent < e then infinite negative else finite negative m e

/-- The value nearest to `digits · 10 ^ exponent`. Outside the range of decimal exponents that a
finite value other than zero can have, the answer is known without computing the power. -/
def ofDecimal (negative : Bool) (digits : Nat) (exponent : Int) : Binary64 :=
  let top : Int := exponent + (Nat.toDigits 10 digits).length
  if digits = 0 then finite negative 0 leastExponent
  else if 310 < top then infinite negative
  else if top < -330 then finite negative 0 leastExponent
  else if exponent < 0 then ofRatio negative digits (Nat.pow 10 exponent.natAbs)
  else ofRatio negative (digits * Nat.pow 10 exponent.natAbs) 1

/-- The sign of a value is minus. -/
def isNegative : Binary64 → Bool
  | nan => false
  | infinite negative => negative
  | finite negative _ _ => negative

end Binary64

end KeyIntake
