import KeyIntake.Dictionary
import KeyIntake.Load.Ending
/-!
# Stock mappings

Mappings of texts to texts that need no knowledge of keys, and a way to make a mapping fail for
chosen items.

## Main definitions

* `Mapping.whole`, `Mapping.named`, `Mapping.nothing`, `Mapping.commaSplit`, `Mapping.eachLine`.
* `Interruptions` — the items at which a mapping is made to fail.
* `Mapping.interrupted` — a mapping with such failures.
-/

set_option autoImplicit false

namespace KeyIntake

namespace Mapping

/-- The text itself. -/
def whole : Mapping String String := fun _ text => .value [text]

/-- The text behind the name of its item. -/
def named : Mapping String String := fun name text => .value [name ++ "=" ++ text]

/-- No value at all. -/
def nothing : Mapping String String := fun _ _ => .value []

/-- What stands between the commas of a text: one piece more than there are commas. -/
def commaPieces : List Char → List (List Char)
  | [] => [[]]
  | c :: cs =>
    if c = ',' then [] :: commaPieces cs
    else match commaPieces cs with
      | [] => [[c]]
      | p :: ps => (c :: p) :: ps

/-- The pieces of a text between commas. -/
def commaSplit : Mapping String String := fun _ text =>
  .value ((commaPieces text.toList).map String.ofList)

/-- The entry lines of a text. -/
def eachLine : Mapping String String := perLine fun _ line => .ok line

end Mapping

/-- Items at which a mapping panics without a message, panics with one, or fails. -/
structure Interruptions where
  silentPanics : List String := []
  panics : Dictionary String := .empty
  faults : Dictionary String := .empty

/-- A mapping that is interrupted at some items: by a panic rather than by a fault, and by a panic
without a message rather than by one with a message. -/
def Mapping.interrupted {ι α : Type} (i : Interruptions) (mapping : Mapping ι α) : Mapping ι α :=
  fun name input =>
    if i.silentPanics.contains name then .panic none
    else match i.panics.get? name with
      | some message => .panic (some message)
      | none =>
        match i.faults.get? name with
        | some detail => .fault ⟨.mapping, detail⟩
        | none => mapping name input

end KeyIntake
