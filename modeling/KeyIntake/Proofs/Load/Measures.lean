import KeyIntake.Load.Counter
import KeyIntake.Load.Log
import KeyIntake.Load.Report
import KeyIntake.Proofs.Load.Agenda
import KeyIntake.Proofs.Load.Trace
import Mathlib.Data.List.Count
/-!
# What counters and log say of a trace

A load is observed through its counters and its log. Both are read off the trace, and so are the
questions that can be asked of them: how often a counter was moved, how many records have a level,
and which fields they carry.

## Main definitions

* `Counter.all` — all counters; `Counter.kind` is the kind of item that a counter is about.
* `Report.counter`, `Report.records` — the counters and the log of a load.
* `LogRecord.field?` — the value of a field.

## Main results

* `Counter.name_injective` — counters are published under different names.
* `Counter.get?_tally` — what is published of a counter.
* `Report.counter_eq_countP` — a counter counts the events that move it.
* `Report.items_warned` — what the warnings of a log are about.
* `Report.faults_eq_records`, `Report.faults_eq_counters` — log and counters agree with the harvest.
-/

set_option relaxedAutoImplicit false
set_option autoImplicit false

namespace KeyIntake

/-! ### Counters -/

namespace Counter

/-- The kind of item that a counter is about. -/
def kind : Counter → ItemKind
  | itemsLoaded kind => kind
  | itemsFailed kind _ => kind
  | listingFailures kind => kind
  | loadDurations kind => kind

/-- All counters. -/
def all : List Counter :=
  [ItemKind.secret, ItemKind.key].flatMap fun kind =>
    [itemsLoaded kind, listingFailures kind, loadDurations kind] ++
      Fault.Kind.all.map (itemsFailed kind)

/-- Every counter is among them. -/
lemma mem_all (c : Counter) : c ∈ all := by
  cases c with
  | itemsFailed kind reason => cases kind <;> cases reason <;> decide
  | itemsLoaded kind => cases kind <;> decide
  | listingFailures kind => cases kind <;> decide
  | loadDurations kind => cases kind <;> decide

/-- **Counters are published under different names.** -/
theorem name_injective : Function.Injective name := by
  have hnodup : (all.map name).Nodup := by decide +kernel
  intro c c' h
  exact List.inj_on_of_nodup_map hnodup (mem_all c) (mem_all c') h

/-- Each time that a counter is moved adds one to what is published of it.

**Proof sketch.** Induction on the moves. A move changes the entry of its own counter only, since
names differ. -/
lemma get?_foldl (moved : List Counter) (d : Dictionary Nat) (c : Counter) :
    ((moved.foldl (fun d c => d.insert c.name ((d.get? c.name).getD 0 + 1)) d).get? c.name).getD 0 =
      (d.get? c.name).getD 0 + moved.count c := by
  induction moved generalizing d with
  | nil => rfl
  | cons c' rest ih =>
    rw [List.foldl_cons, ih, Dictionary.get?_insert, List.count_cons]
    by_cases h : c = c'
    · subst h
      simp only [↓reduceIte, Option.getD_some, beq_self_eq_true]
      omega
    · have hname : c.name ≠ c'.name := fun heq => h (name_injective heq)
      have hbeq : (c' == c) = false := beq_false_of_ne fun heq => h heq.symm
      simp only [hname, hbeq, Bool.false_eq_true, ↓reduceIte, Nat.add_zero]

/-- **What is published of a counter** is how often it was moved. -/
theorem get?_tally (moved : List Counter) (c : Counter) :
    ((tally moved).get? c.name).getD 0 = moved.count c := by
  rw [tally, get?_foldl, Dictionary.get?_empty]
  exact Nat.zero_add _

end Counter

/-! ### Records -/

/-- The value of a field of a record. -/
def LogRecord.field? (r : LogRecord) (key : String) : Option LogValue :=
  (r.fields.find? fun f => f.1 == key).map Prod.snd

namespace Event

variable {α : Type}

/-- The name and the fault of an item that could not be read or whose job failed. -/
def itemFault? : Event α → Option (String × Fault)
  | unreadable name fault | lost name fault => some (name, fault)
  | _ => none

/-- The event reports the fault of a listing. -/
def isListingFault : Event α → Bool
  | unlisted _ | pageLost _ _ => true
  | _ => false

/-- The event is the end of a job that yielded values. -/
def isLoaded : Event α → Bool
  | loaded _ _ => true
  | _ => false

/-- The event sums up a load. -/
def isSummary : Event α → Bool
  | finished .. => true
  | _ => false

/-- A fault is that of an item or that of a listing. -/
lemma countP_isFault (trace : List (Event α)) :
    trace.countP isFault = (trace.filterMap itemFault?).length + trace.countP isListingFault := by
  rw [List.length_filterMap_eq_countP]
  induction trace with
  | nil => rfl
  | cons e rest ih =>
    simp only [List.countP_cons, ih]
    cases e <;> simp [isFault, itemFault?, isListingFault] <;> omega

variable (kind : ItemKind) (e : Event α)

/-- Warnings are about the faults of items. -/
lemma level_record_warn : ((e.record kind).level == .warn) = e.itemFault?.isSome := by
  cases e <;> rfl

/-- Errors are about the faults of listings. -/
lemma level_record_error : ((e.record kind).level == .error) = e.isListingFault := by
  cases e <;> rfl

/-- The record that sums up a load is the only one of its level. -/
lemma level_record_info : ((e.record kind).level == .info) = e.isSummary := by
  cases e <;> rfl

/-- The reports on pages are known by their message. -/
lemma message_record : ((e.record kind).message == "Dispatched vault page") = e.isReport := by
  cases e <;> rfl

variable {e}

/-- The record about the fault of an item names the item. -/
lemma item_record {x : String × Fault} (h : e.itemFault? = some x) :
    (e.record kind).field? "item" = some (.text x.1) := by
  cases e with
  | unreadable name fault => exact Option.some.inj h ▸ rfl
  | lost name fault => exact Option.some.inj h ▸ rfl
  | unlisted fault => exact absurd h (Option.some_ne_none x).symm
  | pageLost page fault => exact absurd h (Option.some_ne_none x).symm
  | pageDone page listed selected => exact absurd h (Option.some_ne_none x).symm
  | loaded name values => exact absurd h (Option.some_ne_none x).symm
  | finished pages loaded failed => exact absurd h (Option.some_ne_none x).symm

end Event

/-! ### Reports -/

namespace Report

variable {α : Type} (r : Report α)

/-- What is published of a counter after a load. -/
def counter (c : Counter) : Nat :=
  ((Counter.tally (Event.counters r.kind r.trace)).get? c.name).getD 0

/-- The log of a load. -/
def records : List LogRecord := r.trace.map (Event.record r.kind)

/-- **A counter counts the events that move it.** -/
theorem counter_eq_countP {c : Counter} {f : Event α → Bool}
    (h : ∀ e : Event α, (e.counter? r.kind == some c) = f e) :
    r.counter c = r.trace.countP f := by
  rw [counter, Counter.get?_tally, Event.counters, List.count, List.countP_filterMap]
  refine List.countP_congr fun e _ => ?_
  rw [← h e]
  cases e.counter? r.kind <;> simp

/-- Records are counted by the events that they are about. -/
lemma countP_records {p : LogRecord → Bool} {f : Event α → Bool}
    (h : ∀ e : Event α, p (e.record r.kind) = f e) : r.records.countP p = r.trace.countP f := by
  rw [records, List.countP_map]
  exact List.countP_congr fun e _ => by rw [Function.comp_apply, h]

/-- Records are selected by the events that they are about. -/
lemma filter_records {p : LogRecord → Bool} {f : Event α → Bool}
    (h : ∀ e : Event α, p (e.record r.kind) = f e) :
    r.records.filter p = (r.trace.filter f).map (Event.record r.kind) := by
  rw [records, List.filter_map]
  congr 1
  exact List.filter_congr fun e _ => h e

/-- The faults of items, by name, in the order in which they were noted. -/
def itemFaults : List (String × Fault) := r.trace.filterMap Event.itemFault?

/-- There is a warning for each fault of an item, and it names the item. -/
lemma items_warned :
    (r.records.filter (·.level == .warn)).map (·.field? "item") =
      r.itemFaults.map fun x => some (.text x.1) := by
  rw [r.filter_records (Event.level_record_warn r.kind), itemFaults]
  induction r.trace with
  | nil => rfl
  | cons e rest ih =>
    cases h : e.itemFault? with
    | none => rw [List.filter_cons_of_neg (by simp [h]), List.filterMap_cons_none h, ih]
    | some x =>
      rw [List.filter_cons_of_pos (by simp [h]), List.filterMap_cons_some h, List.map_cons,
        List.map_cons, List.map_cons, ih, Event.item_record r.kind h]

/-- There are as many warnings as faults of items. -/
lemma countP_warn : r.records.countP (·.level == .warn) = r.itemFaults.length := by
  have h := congrArg List.length r.items_warned
  rwa [List.length_map, List.length_map, ← List.countP_eq_length_filter] at h

/-- Faults of items are counted by the kind of fault. -/
lemma counter_itemsFailed (reason : Fault.Kind) :
    r.counter (.itemsFailed r.kind reason) = r.itemFaults.countP (·.2.kind == reason) := by
  rw [itemFaults, List.countP_filterMap]
  refine r.counter_eq_countP fun e => ?_
  cases e <;> simp [Event.counter?, Event.itemFault?]

/-- Faults of listings are counted. -/
lemma counter_listingFailures :
    r.counter (.listingFailures r.kind) = r.trace.countP Event.isListingFault := by
  refine r.counter_eq_countP fun e => ?_
  cases e <;> simp [Event.counter?, Event.isListingFault]

/-- Jobs that yield values are counted, also when they yield none. -/
lemma counter_itemsLoaded :
    r.counter (.itemsLoaded r.kind) = r.trace.countP Event.isLoaded := by
  refine r.counter_eq_countP fun e => ?_
  cases e <;> simp [Event.counter?, Event.isLoaded]

/-- A duration is recorded when a load is summed up. -/
lemma counter_loadDurations :
    r.counter (.loadDurations r.kind) = r.trace.countP Event.isSummary := by
  refine r.counter_eq_countP fun e => ?_
  cases e <;> simp [Event.counter?, Event.isSummary]

/-- No counter of another kind is moved. -/
lemma counter_of_kind_ne {c : Counter} (h : c.kind ≠ r.kind) : r.counter c = 0 := by
  rw [r.counter_eq_countP fun _ => rfl, List.countP_eq_zero]
  intro e _ he
  have hc : e.counter? r.kind = some c := beq_iff_eq.mp he
  cases e <;> simp only [Event.counter?, Option.some.injEq, reduceCtorEq] at hc <;>
    exact h (hc ▸ rfl)

/-- The faults of all kinds are all the faults. -/
lemma sum_countP_kind (faults : List (String × Fault)) :
    (Fault.Kind.all.map fun reason => faults.countP (·.2.kind == reason)).sum = faults.length := by
  induction faults with
  | nil => rfl
  | cons x rest ih =>
    rw [List.length_cons, ← ih]
    rcases x with ⟨name, kind, detail⟩
    cases kind <;> simp [Fault.Kind.all, List.countP_cons] <;> omega

variable [BEq α]

/-- **The log tells of each fault once**: as a warning or as an error. -/
theorem faults_eq_records :
    r.harvest.faults =
      r.records.countP (·.level == .warn) + r.records.countP (·.level == .error) := by
  rw [harvest, Event.faults_harvest, Event.countP_isFault, countP_warn,
    r.countP_records (Event.level_record_error r.kind)]
  rfl

/-- **The counters count each fault once**: by its kind or as the fault of a listing. -/
theorem faults_eq_counters :
    r.harvest.faults =
      (Fault.Kind.all.map fun reason => r.counter (.itemsFailed r.kind reason)).sum +
        r.counter (.listingFailures r.kind) := by
  simp only [harvest, Event.faults_harvest, Event.countP_isFault, counter_itemsFailed,
    counter_listingFailures, sum_countP_kind]
  rfl

end Report

end KeyIntake
