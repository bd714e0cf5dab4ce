import KeyIntake.Load.Job
import KeyIntake.TagQuery
/-!
# The agenda of a load

What a load has to do, in order, is fixed by the listing and the selection alone: wait for a page,
go through its entries, report the page, go on to the next one. How long each step has to wait for a
free worker is decided by the pool that carries the agenda out.

## Main definitions

* `Step` — the steps of an agenda.
* `TagQuery.selected` — the items of a page that are selected, in listing order.
* `Agenda.ofPages` — the agenda for the pages of a listing.
-/

set_option autoImplicit false

namespace KeyIntake

/-- One step of the agenda of a load. -/
inductive Step (α : Type) where
  /-- Wait for the next page. -/
  | await (delay : Nat)
  /-- Count an entry whose metadata could not be read. -/
  | reject (name : String) (fault : Fault)
  /-- Start the job of a selected item as soon as a worker is free. -/
  | start (job : Job α)
  /-- Report a page as done. -/
  | close (page listed selected : Nat)
  /-- Stop listing, because a page failed. -/
  | abandon (page : Nat) (fault : Fault)

/-- The selected items among the entries of a page, in listing order. -/
def TagQuery.selected (q : TagQuery) (entries : List ListingEntry) : List Item :=
  entries.filterMap fun
    | .readable item => if q.selects item.tags then some item else none
    | .unreadable _ _ => none

namespace Agenda

variable {α : Type}

/-- The steps for the entries of a page. Unreadable entries are counted whatever the query says,
because their tags are unknown. -/
def ofEntries (q : TagQuery) (job : Item → Job α) (entries : List ListingEntry) : List (Step α) :=
  entries.filterMap fun
    | .readable item => if q.selects item.tags then some (.start (job item)) else none
    | .unreadable name fault => some (.reject name fault)

/-- The steps for a listing's pages, numbered from `n`. A page that fails is the last one. -/
def ofPages (q : TagQuery) (job : Item → Job α) (n : Nat) : List Page → List (Step α)
  | [] => []
  | page :: pages =>
    .await page.delay ::
      match page.content with
      | .error fault => [.abandon n fault]
      | .ok entries =>
        ofEntries q job entries ++
          .close n entries.length (q.selected entries).length :: ofPages q job (n + 1) pages

end Agenda

end KeyIntake
