import KeyIntake.Load.Event
import KeyIntake.Proofs.Distinct
/-!
# The harvest of a trace

Traces are compared up to the order of their events. The harvest of a trace counts the events that
report a fault and keeps the values that its events yield, so traces with the same events in any
order have harvests that agree.

## Main definitions

* `Event.isFault`, `Event.yielded` — what an event adds to a harvest.

## Main results

* `Event.faults_harvest`, `Event.values_harvest` — the harvest of a trace, read off its events.
* `Event.harvest_beq_of_perm` — the order of the events does not matter.
-/

set_option relaxedAutoImplicit false
set_option autoImplicit false

namespace KeyIntake

namespace Event

variable {α : Type}

/-- The event reports a fault. -/
def isFault : Event α → Bool
  | unlisted _ | pageLost _ _ | unreadable _ _ | lost _ _ => true
  | pageDone .. | loaded _ _ | finished .. => false

/-- The values that the event reports. -/
def yielded : Event α → List α
  | loaded _ values => values
  | _ => []

variable [BEq α]

/-- One event counts as a fault or not, and adds the values that it reports. -/
lemma addTo_eq (h : Harvest α) (e : Event α) :
    addTo h e = ⟨h.values.insertAll e.yielded, h.faults + [e].countP isFault⟩ := by
  cases e <;> rfl

/-- The events of a trace add their faults and their values to what was gathered before.

**Proof sketch.** Induction on the trace, the harvest so far being arbitrary. -/
lemma foldl_addTo (trace : List (Event α)) (h : Harvest α) :
    trace.foldl addTo h =
      ⟨h.values.insertAll (trace.flatMap yielded), h.faults + trace.countP isFault⟩ := by
  induction trace generalizing h with
  | nil => rfl
  | cons e rest ih =>
    rw [List.foldl_cons, ih, addTo_eq, List.flatMap_cons,
      Distinct.insertAll_append]
    congr 1
    have hsplit : (e :: rest).countP isFault = [e].countP isFault + rest.countP isFault := by
      rw [← List.countP_append, List.singleton_append]
    rw [hsplit, Nat.add_assoc]

/-- **The faults of a harvest** are the events that report one. -/
theorem faults_harvest (trace : List (Event α)) :
    (harvest trace).faults = trace.countP isFault := by
  rw [harvest, foldl_addTo]
  exact Nat.zero_add _

/-- **The values of a harvest** are those that its events report, each kept once. -/
theorem values_harvest (trace : List (Event α)) :
    (harvest trace).values = Distinct.ofList (trace.flatMap yielded) := by
  rw [harvest, foldl_addTo]
  rfl

/-- A harvest contains what equals a value that some event reports. -/
lemma contains_harvest [EquivBEq α] (trace : List (Event α)) (a : α) :
    (harvest trace).values.contains a = (trace.flatMap yielded).any (· == a) := by
  rw [values_harvest, Distinct.contains_ofList]

/-- **The order of events does not matter** for what was gathered. -/
theorem harvest_beq_of_perm [EquivBEq α] {trace trace' : List (Event α)}
    (h : trace.Perm trace') : (harvest trace == harvest trace') = true := by
  rw [Harvest.beq_iff]
  constructor
  · rw [faults_harvest, faults_harvest, h.countP_eq]
  · intro a
    rw [contains_harvest, contains_harvest]
    exact (h.flatMap_right yielded).any_eq

end Event

end KeyIntake
