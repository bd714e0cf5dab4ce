import KeyIntake.Digest.Sha256
import KeyIntake.Fault
import KeyIntake.Text.Hex
import KeyIntake.Text.Quoted
/-!
# Private keys

A line of a secret holds one private key in hexadecimal digits, with an optional `0x` or `0X` in
front. A key is known by its fingerprint, the digest of its material: keys with the same fingerprint
are equal, wherever they come from.

## Main definitions

* `PrivateKey` — a key with its source.
* `PrivateKey.hashInto` — what a hasher sees of a key.
* `PrivateKey.Malformed` — why a line holds no key.
* `PrivateKey.ofLine` — the key on a line.
-/

set_option autoImplicit false

namespace KeyIntake

/-- A private key: the item it comes from, its bytes and their digest in hexadecimal. -/
structure PrivateKey where
  source : String
  material : List UInt8
  fingerprint : String := Hex.encode (Sha256.digest material)
  fingerprint_eq : fingerprint = Hex.encode (Sha256.digest material) := by rfl

namespace PrivateKey

/-- Keys are compared by fingerprint. -/
instance : BEq PrivateKey := ⟨fun a b => a.fingerprint == b.fingerprint⟩

/-- Feed a key to a hasher, given how it takes a text. The hasher takes the fingerprint. -/
def hashInto {σ : Type} (write : σ → String → σ) (state : σ) (k : PrivateKey) : σ :=
  write state k.fingerprint

/-- Why a line holds no key. -/
inductive Malformed where
  /-- Nothing follows the optional `0x`. -/
  | noDigits
  /-- What follows is not the hexadecimal text of a byte string. -/
  | badDigits (reason : Hex.Unreadable)
  deriving DecidableEq, Repr

/-- The text of a reason why digits are not read. A byte is shown as the character with its
number. -/
def digitsMessage : Hex.Unreadable → String
  | .oddLength => "Odd number of digits"
  | .badByte byte position =>
    "Invalid character " ++ Quoted.shownChar (Char.ofNat byte.toNat) ++ " at position " ++
      Text.decimal position

/-- The fault of an item with a line that holds no key. -/
def Malformed.fault (source : String) : Malformed → Fault
  | noDigits => ⟨.mapping, "Empty key in " ++ source⟩
  | badDigits reason => ⟨.mapping, "Invalid hex key in " ++ source ++ ": " ++ digitsMessage reason⟩

/-- A line without one leading `0x` or `0X`. -/
def dropMarker : List Char → List Char
  | '0' :: 'x' :: rest => rest
  | '0' :: 'X' :: rest => rest
  | cs => cs

/-- The key on a line. -/
def ofLine (source line : String) : Except Malformed PrivateKey :=
  let digits := dropMarker line.toList
  if digits.isEmpty then .error .noDigits
  else
    match Hex.decode (digits.flatMap String.utf8EncodeChar) with
    | .ok material => .ok { source, material }
    | .error reason => .error (.badDigits reason)

/-- The key on a line of an item; a line that holds no key is a fault. -/
def parse (source line : String) : Except Fault PrivateKey :=
  (ofLine source line).mapError (Malformed.fault source)

/-- The number of bytes of a key. -/
def size (k : PrivateKey) : Nat := k.material.length

/-- A key as shown in messages. The material is never shown. -/
def shown (k : PrivateKey) : String :=
  Quoted.shownRecord "RegistryEntry"
    [("source", Quoted.shown k.source), ("fingerprint", Quoted.shown k.fingerprint),
      ("material", Quoted.shown "[REDACTED]")]

end PrivateKey

end KeyIntake
