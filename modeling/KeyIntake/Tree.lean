import KeyIntake.Decimal.Binary64
import KeyIntake.Dictionary
/-!
# Trees of data

Settings, requests and replies are trees: scalars, lists and tables. A table lists its fields by
strictly increasing key.

## Main definitions

* `Tree` — the values.
* `Tree.tableOf` — the table of a list of fields, the last of equal keys counting.
* `Tree.field?`, `Tree.at?` — the value of a field, and of a path.
* `Tree.merge` — layer one tree over another.
-/

set_option autoImplicit false

namespace KeyIntake

/-- A value: a scalar, a list or a table. Whole numbers remember whether they were read as signed
ones, because refusals of a value say so. -/
inductive Tree where
  | null
  | bool (b : Bool)
  | unsigned (n : Nat)
  | signed (i : Int)
  | float (x : Binary64)
  | text (s : String)
  | list (items : List Tree)
  | table (fields : List (String × Tree))
  deriving Repr

namespace Tree

instance : Inhabited Tree := ⟨null⟩

/-- The table of a list of fields, in which a later field replaces an earlier one of its key. -/
def tableOf (fields : List (String × Tree)) : Tree := table (Entries.insertAll fields [])

/-- The value of a field of a table. -/
def field? (t : Tree) (key : String) : Option Tree :=
  match t with
  | table fields => Entries.get? fields key
  | _ => none

/-- The item of a list whose position is written in decimal. -/
def item? (t : Tree) (position : String) : Option Tree :=
  match t with
  | list items => position.toNat?.bind fun n => items[n]?
  | _ => none

/-- The value at a path of keys and positions. -/
def at? (t : Tree) : List String → Option Tree
  | [] => some t
  | key :: path => (t.field? key <|> t.item? key).bind fun u => u.at? path

/-! ### Layering -/

mutual

/-- Layer one tree over another: where both are tables they are merged field by field, and
everything else is replaced by the upper tree. -/
def merge (lower : Tree) : Tree → Tree
  | table upper =>
    match lower with
    | table fields => table (mergeFields fields upper)
    | _ => table upper
  | upper => upper

/-- Layer the fields of a table over those of another one. -/
def mergeFields (lower : List (String × Tree)) : List (String × Tree) → List (String × Tree)
  | [] => lower
  | (key, upper) :: rest =>
    let value := match Entries.get? lower key with
      | some old => merge old upper
      | none => upper
    mergeFields (Entries.insert key value lower) rest

end

/-- Layer trees over each other, the later ones on top. -/
def layer (trees : List Tree) : Tree := trees.foldl merge (table [])

end Tree

end KeyIntake
