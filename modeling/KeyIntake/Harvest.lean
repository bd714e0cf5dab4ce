import KeyIntake.Distinct
/-!
# What a load brings in

A harvest is a collection of distinct values and the number of faults met while gathering them.

## Main definitions

* `Harvest` — values and the number of faults.
* `Harvest.gather`, `Harvest.miss` — add the values of an item, count a fault.
* `Harvest.merge` — union of values, sum of faults.
-/

set_option autoImplicit false

namespace KeyIntake

/-- Distinct values and a number of faults. -/
structure Harvest (α : Type) [BEq α] where
  values : Distinct α := .empty
  faults : Nat := 0

namespace Harvest

variable {α : Type} [BEq α]

/-- Nothing gathered, nothing missed. -/
def empty : Harvest α := {}

instance : Inhabited (Harvest α) := ⟨empty⟩

/-- Add the values of one item. -/
def gather (h : Harvest α) (values : List α) : Harvest α :=
  { h with values := h.values.insertAll values }

/-- Count one fault. -/
def miss (h : Harvest α) : Harvest α := { h with faults := h.faults + 1 }

/-- The number of distinct values. -/
def size (h : Harvest α) : Nat := h.values.size

/-- There are no values. -/
def isEmpty (h : Harvest α) : Bool := h.values.isEmpty

/-- Some fault was counted. -/
def hasFaults (h : Harvest α) : Bool := decide (0 < h.faults)

/-- Union of the values, sum of the faults. Of equal values those of the first harvest stay. -/
def merge (h k : Harvest α) : Harvest α :=
  { values := h.values.union k.values, faults := h.faults + k.faults }

/-- Harvests agree when they count as many faults and hold the same values as sets. -/
instance : BEq (Harvest α) := ⟨fun h k => h.faults == k.faults && h.values.sameAs k.values⟩

end Harvest

end KeyIntake
