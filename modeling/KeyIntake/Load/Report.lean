import KeyIntake.Load.Limits
import KeyIntake.Load.Pool
/-!
# Loading the items of a kind

A load opens a listing, carries out its agenda with the workers that its limits allow, and reports
what happened. It never fails: whatever goes wrong is counted in the harvest.

## Main definitions

* `Report` — kind, trace, starts, largest number of fetches at a time, and the instant of return.
* `Report.ofListing` — the load of a listing.
* `Report.harvest` — what the load brought in.
-/

set_option autoImplicit false

namespace KeyIntake

/-- What is known of a load when it has returned, or when it is waiting forever. -/
structure Report (α : Type) where
  kind : ItemKind
  /-- What happened, in order. -/
  trace : List (Event α)
  /-- The items whose fetch was started, in order, with the instants. -/
  starts : List Start
  /-- The largest number of fetches that went on at the same time. -/
  peak : Nat
  /-- The instant at which the load returns, if it does. -/
  elapsed : Option Nat

namespace Report

variable {α : Type} [BEq α]

/-- What the load brought in. -/
def harvest (r : Report α) : Harvest α := Event.harvest r.trace

/-- The load has returned. -/
def returned (r : Report α) : Bool := r.elapsed.isSome

/-- The report of a load that could not open its listing. -/
def unlisted (kind : ItemKind) (fault : Fault) : Report α :=
  { kind, trace := [.unlisted fault], starts := [], peak := 0, elapsed := some 0 }

/-- The report of a load whose agenda led to an outcome. The last event sums up the trace. -/
def ofOutcome (kind : ItemKind) (o : Outcome α) : Report α :=
  let trace := o.pool.trace
  let gathered := Event.harvest trace
  { kind
    trace :=
      if o.returned then
        trace ++ [.finished (Event.pagesDone trace) gathered.size gathered.faults]
      else trace
    starts := o.pool.starts
    peak := o.pool.peak
    elapsed := if o.returned then some o.pool.clock else none }

/-- Load the selected items of a listing: the job of each of them is given. -/
def ofListing (kind : ItemKind) (limits : Limits) (q : TagQuery) (job : Item → Job α) :
    Listing → Report α
  | .error fault => unlisted kind fault
  | .ok pages => ofOutcome kind (Pool.run limits.workers {} (Agenda.ofPages q job 0 pages))

end Report

end KeyIntake
