import KeyIntake.Item
import KeyIntake.Load.Event
/-!
# Counters

Each event of a load moves at most one counter. A counter that is never moved does not exist.

## Main definitions

* `Counter` — the counters, with their labels.
* `Counter.name` — the name under which a counter is published.
* `Event.counter?` — the counter that an event moves.
* `Counter.tally` — how often each counter was moved.
-/

set_option autoImplicit false

namespace KeyIntake

/-- The counters of loads. -/
inductive Counter where
  /-- Items whose job yielded values. -/
  | itemsLoaded (kind : ItemKind)
  /-- Items that failed, by the kind of fault. -/
  | itemsFailed (kind : ItemKind) (reason : Fault.Kind)
  /-- Listings that failed, as a whole or at some page. -/
  | listingFailures (kind : ItemKind)
  /-- Loads whose duration was recorded. -/
  | loadDurations (kind : ItemKind)
  deriving DecidableEq, Repr

namespace Counter

/-- Labels in the notation of the published counters. -/
def labelled (family : String) (labels : List (String × String)) : String :=
  family ++ "\x7b" ++ ",".intercalate (labels.map fun l => l.1 ++ "=\"" ++ l.2 ++ "\"") ++ "\x7d"

/-- The name under which a counter is published. -/
def name : Counter → String
  | itemsLoaded kind => labelled "keyloader_items_loaded_total" [("kind", kind.label)]
  | itemsFailed kind reason =>
    labelled "keyloader_items_failed_total" [("kind", kind.label), ("reason", reason.label)]
  | listingFailures kind => labelled "keyloader_listing_failures_total" [("kind", kind.label)]
  | loadDurations kind => labelled "keyloader_load_duration_seconds_count" [("kind", kind.label)]

/-- How often each counter was moved, by published name. -/
def tally (moved : List Counter) : Dictionary Nat :=
  moved.foldl (fun d c => d.insert c.name ((d.get? c.name).getD 0 + 1)) .empty

end Counter

/-- The counter that an event moves in a load of items of a kind. -/
def Event.counter? {α : Type} (kind : ItemKind) : Event α → Option Counter
  | .unlisted _ => some (.listingFailures kind)
  | .pageLost _ _ => some (.listingFailures kind)
  | .unreadable _ fault => some (.itemsFailed kind fault.kind)
  | .pageDone .. => none
  | .loaded _ _ => some (.itemsLoaded kind)
  | .lost _ fault => some (.itemsFailed kind fault.kind)
  | .finished .. => some (.loadDurations kind)

/-- The counters that a trace moves, in order. -/
def Event.counters {α : Type} (kind : ItemKind) (trace : List (Event α)) : List Counter :=
  trace.filterMap (Event.counter? kind)

end KeyIntake
