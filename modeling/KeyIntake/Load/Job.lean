import KeyIntake.Item
import KeyIntake.Load.Ending
/-!
# Jobs

A job is the work on one selected item: its fetch under the timeout, then the mapping. The mapping
takes no time, so a job ends when its fetch ends.

## Main definitions

* `Job` — an item with the time its work takes and what the work yields.
* `Job.of` — the job for an item.
-/

set_option autoImplicit false

namespace KeyIntake

/-- The work on one selected item: after how many milliseconds it ends and what it yields, or
nothing when it never ends. -/
structure Job (α : Type) where
  item : Item
  course : Option (Nat × Except Fault (List α))

namespace Job

variable {ι α : Type}

/-- The job for an item: fetch it under the timeout, then map what was fetched. Whatever goes wrong
on the way, a panic included, ends up as the fault that the job yields. -/
def of (timeout : Option Nat) (fetch : Item → Fetch ι) (mapping : Mapping ι α) (item : Item) :
    Job α where
  item := item
  course := ((fetch item).within timeout).map fun p =>
    (p.1, (p.2.andThen (mapping item.name)).settle)

/-- The job never ends. -/
def isStuck (job : Job α) : Bool := job.course.isNone

end Job

end KeyIntake
