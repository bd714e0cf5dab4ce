/-!
# Base64 with padding

Three bytes become four letters of a fixed alphabet; a last group of one or two bytes is padded
with `=` to four characters.

## Main definitions

* `Base64.letter` — the letter of a six-bit value.
* `Base64.encode` — bytes to text.
* `Base64.decode?` — text to bytes, only for texts that `Base64.encode` can produce.
-/

set_option autoImplicit false

namespace KeyIntake

namespace Base64

/-- The letters of the values from 0 to 63, in order. -/
def alphabet : List Char :=
  "ABCDEFGHIJKLMNOPQRSTUVWXYZabcdefghijklmnopqrstuvwxyz0123456789+/".toList

/-- The letter of a six-bit value. -/
def letter (n : Nat) : Char := alphabet.getD n '='

/-- The value of a letter. -/
def value? (c : Char) : Option Nat := alphabet.findIdx? (· == c)

/-- Write groups of three bytes. -/
def encodeGroups : List UInt8 → List Char
  | [] => []
  | [a] => [letter (a.toNat / 4), letter (a.toNat % 4 * 16), '=', '=']
  | [a, b] =>
    [letter (a.toNat / 4), letter (a.toNat % 4 * 16 + b.toNat / 16), letter (b.toNat % 16 * 4), '=']
  | a :: b :: c :: rest =>
    letter (a.toNat / 4) :: letter (a.toNat % 4 * 16 + b.toNat / 16) ::
      letter (b.toNat % 16 * 4 + c.toNat / 64) :: letter (c.toNat % 64) :: encodeGroups rest

/-- The text of a byte string. -/
def encode (bytes : List UInt8) : String := String.ofList (encodeGroups bytes)

/-- Read groups of four characters. Padding ends the text, and the bits it leaves over are zero. -/
def decodeGroups? : List Char → Option (List UInt8)
  | [] => some []
  | [p, q, '=', '='] => do
    let a ← value? p
    let b ← value? q
    if b % 16 = 0 then some [UInt8.ofNat (a * 4 + b / 16)] else none
  | [p, q, r, '='] => do
    let a ← value? p
    let b ← value? q
    let c ← value? r
    if c % 4 = 0 then some [UInt8.ofNat (a * 4 + b / 16), UInt8.ofNat (b % 16 * 16 + c / 4)]
    else none
  | p :: q :: r :: s :: rest => do
    let a ← value? p
    let b ← value? q
    let c ← value? r
    let d ← value? s
    let bytes ← decodeGroups? rest
    some (UInt8.ofNat (a * 4 + b / 16) :: UInt8.ofNat (b % 16 * 16 + c / 4) ::
      UInt8.ofNat (c % 4 * 64 + d) :: bytes)
  | _ => none

/-- The bytes whose text this is. -/
def decode? (text : String) : Option (List UInt8) := decodeGroups? text.toList

end Base64

end KeyIntake
