import KeyIntake.Fault
import KeyIntake.Text.Digits
import KeyIntake.Text.Lines
/-!
# How fetches and mappings end

A fetch takes time and then gives a value, fails or panics, or it never ends. A mapping turns a
fetched value into domain values at once. A panic of either is contained and becomes a fault.

## Main definitions

* `Ending` — a value, a fault or a panic.
* `Ending.settle` — an ending in which a panic has become a fault.
* `Fetch` — an ending after a delay, or none.
* `Mapping` — from a fetched value to domain values.
* `Mapping.perLine` — map a text line by line.
-/

set_option autoImplicit false

namespace KeyIntake

/-- How a piece of work ends. A panic carries its message if it has one in text form. -/
inductive Ending (α : Type) where
  | value (a : α)
  | fault (f : Fault)
  | panic (message : Option String)

namespace Ending

variable {α β : Type}

/-- Go on with the value, if there is one. -/
def andThen (e : Ending α) (next : α → Ending β) : Ending β :=
  match e with
  | value a => next a
  | fault f => fault f
  | panic m => panic m

/-- An ending in which a panic has become a fault of kind `internal`. -/
def settle : Ending α → Except Fault α
  | value a => .ok a
  | fault f => .error f
  | panic message =>
    .error ⟨.internal, "unit panicked: " ++ message.getD "non-string panic payload"⟩

/-- The ending of work that cannot panic. -/
def ofExcept : Except Fault α → Ending α
  | .ok a => value a
  | .error f => fault f

end Ending

/-- The fetch of one item. -/
inductive Fetch (α : Type) where
  /-- The fetch ends after a number of milliseconds. -/
  | ends (delay : Nat) (ending : Ending α)
  /-- The fetch never ends. -/
  | hangs

namespace Fetch

variable {α : Type}

/-- The fault of a fetch that was cut off. -/
def timeoutFault (limit : Nat) : Fault :=
  ⟨.timeout, "fetch did not complete within " ++ Text.decimal limit ++ "ms"⟩

/-- When and how a fetch ends under a timeout in milliseconds, if it does. A fetch whose delay is
within the timeout is left alone; any other is cut off when the timeout is over. -/
def within (timeout : Option Nat) (fetch : Fetch α) : Option (Nat × Ending α) :=
  match timeout, fetch with
  | none, ends delay ending => some (delay, ending)
  | none, hangs => none
  | some limit, ends delay ending =>
    if delay ≤ limit then some (delay, ending) else some (limit, .fault (timeoutFault limit))
  | some limit, hangs => some (limit, .fault (timeoutFault limit))

end Fetch

/-- Turns the fetched value of a named item into domain values. -/
abbrev Mapping (ι α : Type) := String → ι → Ending (List α)

namespace Mapping

/-- Apply a function to each value that a mapping yields. -/
def map {ι α β : Type} (f : α → β) (mapping : Mapping ι α) : Mapping ι β :=
  fun name input => (mapping name input).andThen fun values => .value (values.map f)

/-- Apply an action to each entry line of a text, in order, and collect the results. The first
failure of the action is the failure of the whole text. -/
def onLines {m : Type → Type} [Monad m] {α : Type} (entry : String → String → m α)
    (name text : String) : m (List α) :=
  (Text.entries text).mapM (entry name)

/-- The mapping that treats each entry line of a text on its own. -/
def perLine {α : Type} (entry : String → String → Except Fault α) : Mapping String α :=
  fun name text => .ofExcept (onLines entry name text)

end Mapping

end KeyIntake
