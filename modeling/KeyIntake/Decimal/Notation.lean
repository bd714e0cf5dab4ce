import KeyIntake.Decimal.Shortest
import KeyIntake.Text.Digits
/-!
# Notations of floating-point values

Both notations write the shortest digits. The plain one writes every digit position, however large
the number. The other one always shows a fraction and turns to a power of ten for large and small
numbers.

## Main definitions

* `Decimal.positional` — digits around a point.
* `Binary64.plain` — the plain notation.
* `Binary64.scientific` — the notation with powers of ten.
-/

set_option autoImplicit false

namespace KeyIntake

namespace Decimal

/-- The digits before and after the point. -/
def positional (d : Decimal) : List Char × List Char :=
  if d.exponent < 0 then (['0'], List.replicate (d.exponent.natAbs - 1) '0' ++ d.digits)
  else
    let whole := d.exponent.natAbs + 1
    (d.digits.take whole ++ List.replicate (whole - d.digits.length) '0', d.digits.drop whole)

/-- An exponent with its sign and at least two digits. -/
def exponentText (e : Int) : String :=
  let digits := Text.decimal e.natAbs
  (if e < 0 then "-" else "+") ++ (if e.natAbs < 10 then "0" ++ digits else digits)

end Decimal

namespace Binary64

/-- The minus sign of a negative value. -/
def signText (negative : Bool) : String := if negative then "-" else ""

/-- Every digit position is written; a whole number has no point. -/
def plain : Binary64 → String
  | nan => "NaN"
  | infinite negative => signText negative ++ "inf"
  | finite negative m e =>
    let (whole, fraction) := (Decimal.shortest negative m e).positional
    signText negative ++ String.ofList whole ++
      if fraction.isEmpty then "" else "." ++ String.ofList fraction

/-- Powers of ten from `10⁻⁵` up to but not including `10¹⁶` are written by position, with at least
one digit after the point; all others with an exponent, and then with a point only if there is more
than one digit. -/
def scientific : Binary64 → String
  | nan => "NaN"
  | infinite negative => signText negative ++ "inf"
  | finite negative m e =>
    let d := Decimal.shortest negative m e
    if -5 ≤ d.exponent ∧ d.exponent < 16 then
      let (whole, fraction) := d.positional
      signText negative ++ String.ofList whole ++ "." ++
        if fraction.isEmpty then "0" else String.ofList fraction
    else
      let rest := d.digits.drop 1
      signText negative ++ String.ofList (d.digits.take 1) ++
        (if rest.isEmpty then "" else "." ++ String.ofList rest) ++ "e" ++
          Decimal.exponentText d.exponent

end Binary64

end KeyIntake
