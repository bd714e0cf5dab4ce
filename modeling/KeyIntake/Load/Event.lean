import KeyIntake.Fault
import KeyIntake.Harvest
/-!
# Events of a load

A load leaves a trace: the list of what happened, in order. The harvest, the counters and the log
are three views of the same trace.

## Main definitions

* `Event` — what can happen in a load.
* `Event.harvest` — the harvest of a trace.
-/

set_option autoImplicit false

namespace KeyIntake

/-- What can happen while items of one kind are loaded. -/
inductive Event (α : Type) where
  /-- The listing could not be opened. -/
  | unlisted (fault : Fault)
  /-- A page failed, which ends the listing. -/
  | pageLost (page : Nat) (fault : Fault)
  /-- An entry was listed whose metadata could not be read. -/
  | unreadable (name : String) (fault : Fault)
  /-- All entries of a page were handled. -/
  | pageDone (page listed selected : Nat)
  /-- The job of an item yielded values. -/
  | loaded (name : String) (values : List α)
  /-- The job of an item failed. -/
  | lost (name : String) (fault : Fault)
  /-- The load is over. -/
  | finished (pages loaded failed : Nat)
  deriving DecidableEq

namespace Event

variable {α : Type}

/-- The number of pages that a trace reports as done. -/
def pagesDone (trace : List (Event α)) : Nat :=
  trace.countP fun
    | pageDone .. => true
    | _ => false

/-- What an event adds to a harvest. -/
def addTo [BEq α] (h : Harvest α) : Event α → Harvest α
  | unlisted _ => h.miss
  | pageLost _ _ => h.miss
  | unreadable _ _ => h.miss
  | pageDone .. => h
  | loaded _ values => h.gather values
  | lost _ _ => h.miss
  | finished .. => h

/-- The harvest of a trace. -/
def harvest [BEq α] (trace : List (Event α)) : Harvest α := trace.foldl addTo .empty

end Event

end KeyIntake
