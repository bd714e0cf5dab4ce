/-!
# Values kept up to equality

A collection without two equal elements. Equality is the boolean one of the element type, which may
look at a part of a value only: of equal values the one that came first is kept.

## Main definitions

* `Distinct` — lists without equal elements, in the order in which the elements came.
* `Distinct.insert`, `Distinct.insertAll`, `Distinct.union` — growth; first comers stay.
* `Distinct.sameAs` — equality as sets.
-/

set_option autoImplicit false

namespace KeyIntake

/-- A list of values no two of which are equal. -/
structure Distinct (α : Type) [BEq α] where
  values : List α
  apart : values.Pairwise fun a b => (a == b) = false

namespace Distinct

variable {α : Type} [BEq α]

/-- No values. -/
def empty : Distinct α := ⟨[], List.Pairwise.nil⟩

instance : Inhabited (Distinct α) := ⟨empty⟩

/-- An equal value is kept. -/
def contains (s : Distinct α) (a : α) : Bool := s.values.any (· == a)

/-- Add a value at the end unless an equal one is kept already. -/
def insert (s : Distinct α) (a : α) : Distinct α :=
  if h : s.contains a = true then s
  else
    { values := s.values ++ [a]
      apart := by
        rw [List.pairwise_append]
        refine ⟨s.apart, List.pairwise_singleton _ _, ?_⟩
        intro x hx y hy
        rw [List.mem_singleton] at hy
        subst hy
        cases hxy : x == y
        · rfl
        · exact absurd (List.any_eq_true.mpr ⟨x, hx, hxy⟩) h }

/-- Add values one after the other. -/
def insertAll (s : Distinct α) (values : List α) : Distinct α := values.foldl insert s

/-- The distinct values of a list. -/
def ofList (values : List α) : Distinct α := insertAll empty values

/-- The values of the first collection, and those of the second that equal none of them. -/
def union (s t : Distinct α) : Distinct α := s.insertAll t.values

/-- The number of values. -/
def size (s : Distinct α) : Nat := s.values.length

/-- There are no values. -/
def isEmpty (s : Distinct α) : Bool := s.values.isEmpty

/-- Equal number of values, and each value of the first equals one of the second. -/
def sameAs (s t : Distinct α) : Bool := s.size == t.size && s.values.all t.contains

end Distinct

end KeyIntake
