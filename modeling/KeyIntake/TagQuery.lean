import KeyIntake.Item
/-!
# Selection by tags

A query names the tags that an item has to carry, each with its exact value. The query without tags
selects every item, also one that has no tags at all.

## Main definitions

* `TagQuery` — the required tags.
* `TagQuery.selects` — an item's tags satisfy the query.
-/

set_option autoImplicit false

namespace KeyIntake

/-- The tags that a selected item has to carry. -/
structure TagQuery where
  required : Tags := .empty
  deriving DecidableEq

namespace TagQuery

/-- The query that requires one more tag; a key that was required already gets the new value. -/
def require (q : TagQuery) (key value : String) : TagQuery := ⟨q.required.insert key value⟩

/-- The query of a list of pairs, in which a later pair replaces an earlier one of its key. -/
def ofPairs (pairs : List (String × String)) : TagQuery := ⟨.ofPairs pairs⟩

/-- The number of required tags. -/
def size (q : TagQuery) : Nat := q.required.size

/-- No tag is required. -/
def isEmpty (q : TagQuery) : Bool := q.required.isEmpty

/-- Every required tag is carried with the required value. An item without tags carries none. -/
def selects (q : TagQuery) (tags : Option Tags) : Bool :=
  q.required.entries.all fun p => (tags.bind (·.get? p.1)) == some p.2

end TagQuery

end KeyIntake
