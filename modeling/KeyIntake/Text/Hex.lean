import KeyIntake.Text.Digits
/-!
# Hexadecimal text of byte strings

Each byte is written as two lower-case digits; digits of either case are read. The reader looks at
the bytes of the text's encoding, so a character outside ASCII counts with every one of its bytes.

## Main definitions

* `Hex.encode` — bytes to digits.
* `Hex.Unreadable` — why a text denotes no byte string.
* `Hex.decode` — digits to bytes.
-/

set_option autoImplicit false

namespace KeyIntake

namespace Hex

/-- The two digits of a byte, high half first. -/
def pair (b : UInt8) : List Char :=
  [Nat.digitChar (b.toNat / 16), Nat.digitChar (b.toNat % 16)]

/-- The lower-case hexadecimal text of a byte string. -/
def encode (bytes : List UInt8) : String := String.ofList (bytes.flatMap pair)

/-- Why a text is not the hexadecimal text of a byte string. -/
inductive Unreadable where
  /-- The text has an odd number of bytes. -/
  | oddLength
  /-- The byte at this position is no digit. -/
  | badByte (byte : UInt8) (position : Nat)
  deriving DecidableEq, Repr

/-- The value of a byte that is a digit. -/
def byteValue? (b : UInt8) : Option Nat := Text.hexValue? (Char.ofNat b.toNat)

/-- Read pairs of digits, counting positions from `position`. -/
def decodePairs (position : Nat) : List UInt8 → Except Unreadable (List UInt8)
  | [] => .ok []
  | [_] => .error .oddLength
  | high :: low :: rest =>
    match byteValue? high with
    | none => .error (.badByte high position)
    | some h =>
      match byteValue? low with
      | none => .error (.badByte low (position + 1))
      | some l => (decodePairs (position + 2) rest).map (UInt8.ofNat (16 * h + l) :: ·)

/-- The bytes that a text denotes. An odd length is reported before any unreadable byte. -/
def decode (bytes : List UInt8) : Except Unreadable (List UInt8) :=
  if bytes.length % 2 = 1 then .error .oddLength else decodePairs 0 bytes

end Hex

end KeyIntake
