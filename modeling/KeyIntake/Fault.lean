/-!
# Faults

Everything that can go wrong while keys are taken in ends as a fault: a kind, which logs and
counters use as a label, and a detail. A load never fails as a whole; it counts faults.

## Main definitions

* `Fault.Kind` — the nine kinds, with `Fault.Kind.label` and `Fault.Kind.heading`.
* `Fault` — a kind with its detail.
* `Fault.message` — the text of a fault.
* `Fault.classify` — the fault for the text of a failed exchange with the vault.
-/

set_option autoImplicit false

namespace KeyIntake

/-- The kinds of fault. -/
inductive Fault.Kind where
  | notFound
  | validation
  | unauthenticated
  | forbidden
  | externalService
  | mapping
  | timeout
  | config
  | internal
  deriving DecidableEq, Repr

/-- The label of a kind in log fields and counters. -/
def Fault.Kind.label : Fault.Kind → String
  | notFound => "not_found"
  | validation => "validation"
  | unauthenticated => "unauthenticated"
  | forbidden => "forbidden"
  | externalService => "external_service"
  | mapping => "mapping"
  | timeout => "timeout"
  | config => "config"
  | internal => "internal"

/-- The words that open the text of a fault of this kind. -/
def Fault.Kind.heading : Fault.Kind → String
  | notFound => "Not found"
  | validation => "Validation error"
  | unauthenticated => "Unauthenticated"
  | forbidden => "Forbidden"
  | externalService => "External service error"
  | mapping => "Mapping error"
  | timeout => "Timeout"
  | config => "Configuration error"
  | internal => "Internal error"

/-- All kinds, in the order of their declaration. -/
def Fault.Kind.all : List Fault.Kind :=
  [notFound, validation, unauthenticated, forbidden, externalService, mapping, timeout, config,
    internal]

/-- The kind with a given label. -/
def Fault.Kind.ofLabel? (label : String) : Option Fault.Kind :=
  Fault.Kind.all.find? fun k => k.label == label

/-- A fault: its kind and its detail. -/
structure Fault where
  kind : Fault.Kind
  detail : String
  deriving DecidableEq, Repr

namespace Fault

/-- The text of a fault. -/
def message (f : Fault) : String := f.kind.heading ++ ": " ++ f.detail

/-- A fault of kind `notFound`. -/
def isNotFound (f : Fault) : Bool := f.kind == .notFound

/-! ### Classification of failed exchanges -/

/-- A text occurs in another one. -/
def occurs (needle : List Char) : List Char → Bool
  | [] => needle.isEmpty
  | c :: cs => needle.isPrefixOf (c :: cs) || occurs needle cs

/-- The kind of fault that a text announces, by the first of three pairs of marks that occurs in it
whatever the case of its letters. Only ASCII letters are lowered: of the other characters that
lower to an ASCII letter, one gives a `k`, which no mark holds, and one an `i` followed by a
combining dot, which continues no mark. -/
def kindOfText (text : String) : Kind :=
  let lowered := text.toList.map Char.toLower
  let holds (mark : String) : Bool := occurs mark.toList lowered
  if holds "404" || holds "not found" then .notFound
  else if holds "403" || holds "permission denied" then .forbidden
  else if holds "401" || holds "unauthorized" then .unauthenticated
  else .externalService

/-- The fault for the text of a failed exchange, in the context of what was attempted. The context
has no say in the kind. -/
def classify (text context : String) : Fault where
  kind := kindOfText text
  detail := context ++ ": " ++ text

/-- Each label belongs to one kind. -/
theorem Kind.ofLabel?_label (k : Kind) : Kind.ofLabel? k.label = some k := by
  cases k <;> rfl

end Fault

end KeyIntake
