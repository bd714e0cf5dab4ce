import KeyIntake.Dictionary
import KeyIntake.Fault
/-!
# Items of a vault and their listing

A vault lists its items page by page. A page takes time to arrive and arrives either as a list of
entries or as a fault, after which nothing more can be listed. An entry whose metadata could not be
read stays in its page.

## Main definitions

* `ItemKind` — secrets and signing keys.
* `Item` — name, tags and version of a listed item.
* `ListingEntry`, `Page`, `Listing` — what a vault answers when its items are listed.
-/

set_option autoImplicit false

namespace KeyIntake

/-- The two kinds of item that are loaded. -/
inductive ItemKind where
  /-- A text that is read out of the vault. -/
  | secret
  /-- A signing key that never leaves the vault. -/
  | key
  deriving DecidableEq, Repr

/-- The word for a kind in log fields and counters. -/
def ItemKind.label : ItemKind → String
  | secret => "secret"
  | key => "key"

/-- Tags of an item: values by name. -/
abbrev Tags := Dictionary String

/-- A listed item. An item without a version stands for its latest one. -/
structure Item where
  name : String
  tags : Option Tags := none
  version : Option String := none
  deriving DecidableEq

/-- The item with one more tag. -/
def Item.withTag (item : Item) (key value : String) : Item :=
  { item with tags := some ((item.tags.getD .empty).insert key value) }

/-- The item pinned to a version. -/
def Item.withVersion (item : Item) (version : String) : Item :=
  { item with version := some version }

/-- One entry of a page. -/
inductive ListingEntry where
  /-- An item with its metadata. -/
  | readable (item : Item)
  /-- A name whose metadata could not be read. -/
  | unreadable (name : String) (fault : Fault)
  deriving DecidableEq

/-- The name that an entry lists. -/
def ListingEntry.name : ListingEntry → String
  | readable item => item.name
  | unreadable name _ => name

/-- A page of a listing: how long it takes to arrive, in milliseconds, and what arrives. -/
structure Page where
  delay : Nat := 0
  content : Except Fault (List ListingEntry)

/-- The answer to a request to list: the pages to come, or a fault before the first of them. -/
abbrev Listing := Except Fault (List Page)

/-- The pages before the first one that fails, as lists of entries. -/
def Page.intact : List Page → List (List ListingEntry)
  | [] => []
  | page :: pages =>
    match page.content with
    | .ok entries => entries :: intact pages
    | .error _ => []

end KeyIntake
