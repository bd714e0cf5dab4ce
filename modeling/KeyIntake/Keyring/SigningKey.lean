/-!
# Signing keys

A signing key stays in the vault. What is held here is a reference to it, known by its identifier.

## Main definitions

* `SigningKey` — a reference to a key in the vault.
-/

set_option autoImplicit false

namespace KeyIntake

/-- A reference to a signing key: the mount and the name that lead to it, the version it is pinned
to if any, and the identifier by which it is known. -/
structure SigningKey where
  mount : String
  name : String
  version : Option Nat := none
  id : String
  deriving DecidableEq, Repr

namespace SigningKey

/-- Signing keys are compared by identifier. -/
instance : BEq SigningKey := ⟨fun a b => a.id == b.id⟩

end SigningKey

end KeyIntake
