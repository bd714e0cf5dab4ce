import KeyIntake.Load.Counter
import KeyIntake.Load.Log
import KeyIntake.Proofs.Load.Collection
import KeyIntake.Proofs.Load.Report
import KeyIntake.Proofs.Load.Trace
/-!
# Loads that differ in their values only

Two loads go through the same listing with the same limits. Their jobs take the same time and yield
as many values or the same fault, and the values on the one side correspond to those on the other
by some relation. Then the two loads go the same way step by step: a pool never looks at the values
that its jobs yield. What is noted of the values is how many there are, and the harvest looks at
them only to tell equal ones apart; so if values are equal on the one side just when the values that
correspond to them are, the two loads report the same.

## Main definitions

* `Event.outline` — an event without its values.
* `YieldsAlike`, `Job.Alike`, `Running.Alike` — what jobs yield on either side.
* `TracesAlike`, `Pool.Alike`, `Report.Alike` — what differs in corresponding values only.
* `Load.Alike` — loads that go through the same listing and start jobs alike.

## Main results

* `Event.record_outline`, `Event.counter?_outline` — what is logged and counted of an event.
* `Pool.Alike.run` — a run keeps pools alike.
* `Distinct.forall₂_ofList` — distinct values correspond.
* `Load.Alike.report` — loads that start jobs alike report alike.
-/

set_option relaxedAutoImplicit false
set_option autoImplicit false

namespace KeyIntake

variable {α β : Type}

/-! ### Events without their values -/

namespace Event

/-- An event in which only the number of values is left of the values. -/
def outline : Event α → Event Unit
  | unlisted fault => .unlisted fault
  | pageLost page fault => .pageLost page fault
  | unreadable name fault => .unreadable name fault
  | pageDone page listed selected => .pageDone page listed selected
  | loaded name values => .loaded name (values.map fun _ => ())
  | lost name fault => .lost name fault
  | finished pages kept failed => .finished pages kept failed

variable (kind : ItemKind) (e : Event α)

/-- What is logged of an event does not tell its values. -/
lemma record_outline : e.outline.record kind = e.record kind := by
  cases e with
  | loaded name values => simp [outline, record]
  | _ => rfl

/-- The counter that an event moves does not tell its values. -/
lemma counter?_outline : e.outline.counter? kind = e.counter? kind := by
  cases e <;> rfl

/-- Whether an event reports a fault does not tell its values. -/
lemma isFault_outline : e.outline.isFault = e.isFault := by
  cases e <;> rfl

/-- Whether an event reports a page does not tell its values. -/
lemma isReport_outline : e.outline.isReport = e.isReport := by
  cases e <;> rfl

end Event

/-! ### Distinct values side by side -/

variable (R : α → β → Prop)

/-- Corresponding values are equal on the one side just when they are on the other. -/
def RespectsEquality [BEq α] [BEq β] : Prop :=
  ∀ ⦃a b : α⦄ ⦃a' b' : β⦄, R a a' → R b b' → (a == b) = (a' == b')

variable {R}

namespace Distinct

variable [BEq α] [BEq β] (hR : RespectsEquality R)

include hR

/-- Values that correspond are added to collections that correspond. -/
lemma forall₂_insert {s : Distinct α} {t : Distinct β} (h : List.Forall₂ R s.values t.values)
    {a : α} {b : β} (hab : R a b) : List.Forall₂ R (s.insert a).values (t.insert b).values := by
  have hany {xs : List α} {ys : List β} (hxs : List.Forall₂ R xs ys) :
      xs.any (· == a) = ys.any (· == b) := by
    induction hxs with
    | nil => rfl
    | cons hx _ ih => rw [List.any_cons, List.any_cons, ih, hR hx hab]
  have hcontains : s.contains a = t.contains b := hany h
  unfold insert
  by_cases hmem : s.contains a = true
  · rw [dif_pos hmem, dif_pos (hcontains ▸ hmem)]
    exact h
  · rw [dif_neg hmem, dif_neg (hcontains ▸ hmem)]
    exact List.rel_append h (.cons hab .nil)

/-- **The distinct values of corresponding lists correspond.** -/
theorem forall₂_ofList {xs : List α} {ys : List β} (h : List.Forall₂ R xs ys) :
    List.Forall₂ R (ofList xs).values (ofList ys).values := by
  have hgrow {s : Distinct α} {t : Distinct β} (hst : List.Forall₂ R s.values t.values) :
      List.Forall₂ R (s.insertAll xs).values (t.insertAll ys).values := by
    induction h generalizing s t with
    | nil => exact hst
    | cons hab _ ih => exact ih (forall₂_insert hR hst hab)
  exact hgrow .nil

end Distinct

/-! ### Traces side by side -/

variable (R) in
/-- **Traces that differ in corresponding values only.** -/
structure TracesAlike (trace : List (Event α)) (trace' : List (Event β)) : Prop where
  outline : trace.map Event.outline = trace'.map Event.outline
  yielded : List.Forall₂ R (trace.flatMap Event.yielded) (trace'.flatMap Event.yielded)

namespace TracesAlike

variable {trace : List (Event α)} {trace' : List (Event β)}

/-- One more event is noted on either side. -/
lemma concat (h : TracesAlike R trace trace') {e : Event α} {e' : Event β}
    (houtline : e.outline = e'.outline) (hyielded : List.Forall₂ R e.yielded e'.yielded) :
    TracesAlike R (trace ++ [e]) (trace' ++ [e']) := by
  obtain ⟨hout, hyield⟩ := h
  constructor
  · rw [List.map_append, List.map_append, hout, List.map_singleton, List.map_singleton, houtline]
  · rw [List.flatMap_append, List.flatMap_append, List.flatMap_singleton, List.flatMap_singleton]
    exact List.rel_append hyield hyielded

variable (h : TracesAlike R trace trace')

include h

/-- Whatever does not look at values is the same on either side. -/
lemma map_eq {γ : Type} {f : Event Unit → γ} {g : Event α → γ} {g' : Event β → γ}
    (hg : ∀ e, f e.outline = g e) (hg' : ∀ e, f e.outline = g' e) :
    trace.map g = trace'.map g' := by
  have hcomp := congrArg (List.map f) h.outline
  rw [List.map_map, List.map_map] at hcomp
  calc trace.map g = trace.map (f ∘ Event.outline) := List.map_congr_left fun e _ => (hg e).symm
    _ = trace'.map (f ∘ Event.outline) := hcomp
    _ = trace'.map g' := List.map_congr_left fun e _ => hg' e

/-- As many pages are reported on either side. -/
lemma pagesDone : Event.pagesDone trace = Event.pagesDone trace' := by
  have hflags := h.map_eq Event.isReport_outline Event.isReport_outline
  have hcount := congrArg (List.countP id) hflags
  rw [List.countP_map, List.countP_map] at hcount
  rw [Event.pagesDone_eq_countP, Event.pagesDone_eq_countP]
  exact hcount

variable [BEq α] [BEq β]

/-- As many faults are counted on either side. -/
lemma faults : (Event.harvest trace).faults = (Event.harvest trace').faults := by
  have hflags := h.map_eq Event.isFault_outline Event.isFault_outline
  have hcount := congrArg (List.countP id) hflags
  rw [List.countP_map, List.countP_map] at hcount
  rw [Event.faults_harvest, Event.faults_harvest]
  exact hcount

variable (hR : RespectsEquality R)

include hR

/-- The values that are kept on either side correspond. -/
lemma values : List.Forall₂ R (Event.harvest trace).values.values
    (Event.harvest trace').values.values := by
  rw [Event.values_harvest, Event.values_harvest]
  exact Distinct.forall₂_ofList hR h.yielded

/-- As many values are kept on either side. -/
lemma size : (Event.harvest trace).size = (Event.harvest trace').size :=
  (h.values hR).length_eq

end TracesAlike

/-! ### Jobs side by side -/

variable (R) in
/-- **What jobs yield on either side**: values that correspond one by one, or the same fault. -/
inductive YieldsAlike : Except Fault (List α) → Except Fault (List β) → Prop where
  | ok {values : List α} {values' : List β} (h : List.Forall₂ R values values') :
      YieldsAlike (.ok values) (.ok values')
  | error (fault : Fault) : YieldsAlike (.error fault) (.error fault)

variable (R) in
/-- Jobs for the same item that both never end, or that take the same time, with yields alike. -/
inductive Job.Alike (job : Job α) (job' : Job β) : Prop where
  | stuck (hitem : job.item = job'.item) (h : job.course = none) (h' : job'.course = none)
  | ends (hitem : job.item = job'.item) {duration : Nat} {c : Except Fault (List α)}
      {c' : Except Fault (List β)} (h : job.course = some (duration, c))
      (h' : job'.course = some (duration, c')) (halike : YieldsAlike R c c')

variable (R) in
/-- Started jobs with the same number, item and end, and with yields alike. -/
structure Running.Alike (u : Running α) (v : Running β) : Prop where
  index : u.index = v.index
  name : u.name = v.name
  finish : u.finish = v.finish
  outcome : YieldsAlike R u.outcome v.outcome

namespace Running.Alike

variable {u : Running α} {v : Running β}

/-- What is noted of such jobs has the same outline and corresponding values. -/
lemma event (h : u.Alike R v) :
    u.event.outline = v.event.outline ∧ List.Forall₂ R u.event.yielded v.event.yielded := by
  obtain ⟨-, hname, -, houtcome⟩ := h
  unfold Running.event
  rw [hname]
  generalize u.outcome = c at houtcome
  generalize v.outcome = c' at houtcome
  cases houtcome with
  | ok hvalues =>
    refine ⟨?_, hvalues⟩
    simp only [Event.outline, List.map_const', hvalues.length_eq]
  | error fault => exact ⟨rfl, .nil⟩

/-- Such jobs find the same place in queues of such jobs. -/
lemma enqueue (h : u.Alike R v) {queue : List (Running α)} {queue' : List (Running β)}
    (hqueue : List.Forall₂ (Running.Alike R) queue queue') :
    List.Forall₂ (Running.Alike R) (u.enqueue queue) (v.enqueue queue') := by
  induction hqueue with
  | nil => exact .cons h .nil
  | @cons w w' rest rest' hw hrest ih =>
    rw [Running.enqueue, Running.enqueue, h.finish, hw.finish]
    by_cases hlt : v.finish < w'.finish
    · rw [if_pos hlt, if_pos hlt]
      exact .cons h (.cons hw hrest)
    · rw [if_neg hlt, if_neg hlt]
      exact .cons hw ih

end Running.Alike

/-! ### Pools side by side -/

namespace Pool

variable (R) in
/-- **Pools that differ in corresponding values only.** -/
structure Alike (p : Pool α) (q : Pool β) : Prop where
  clock : p.clock = q.clock
  stuck : p.stuck = q.stuck
  starts : p.starts = q.starts
  peak : p.peak = q.peak
  queue : List.Forall₂ (Running.Alike R) p.queue q.queue
  trace : TracesAlike R p.trace q.trace

namespace Alike

variable {p : Pool α} {q : Pool β}

/-- Such pools have as many jobs in flight. -/
lemma inFlight (h : p.Alike R q) : p.inFlight = q.inFlight := by
  rw [Pool.inFlight, Pool.inFlight, h.queue.length_eq, h.stuck]

/-- Such pools have as many fetches going on. -/
lemma fetching (h : p.Alike R q) : p.fetching = q.fetching := by
  have hcount {queue : List (Running α)} {queue' : List (Running β)}
      (hqueue : List.Forall₂ (Running.Alike R) queue queue') :
      queue.countP (fun u => p.clock < u.finish) = queue'.countP fun u => q.clock < u.finish := by
    induction hqueue with
    | nil => rfl
    | cons hu _ ih => rw [List.countP_cons, List.countP_cons, ih, hu.finish, h.clock]
  rw [Pool.fetching, Pool.fetching, hcount h.queue, h.stuck]

/-- The same event without values is noted. -/
lemma note (h : p.Alike R q) {e : Event α} {e' : Event β} (houtline : e.outline = e'.outline)
    (hyielded : List.Forall₂ R e.yielded e'.yielded) : (p.note e).Alike R (q.note e') := by
  obtain ⟨hclock, hstuck, hstarts, hpeak, hqueue, htrace⟩ := h
  exact ⟨hclock, hstuck, hstarts, hpeak, hqueue, htrace.concat houtline hyielded⟩

/-- Time passes. -/
lemma wait (h : p.Alike R q) (delay : Nat) : (p.wait delay).Alike R (q.wait delay) := by
  obtain ⟨hclock, hstuck, hstarts, hpeak, hqueue, htrace⟩ := h
  exact ⟨congrArg (· + delay) hclock, hstuck, hstarts, hpeak, hqueue, htrace⟩

/-- A job is collected. -/
lemma collect (h : p.Alike R q) {u : Running α} {v : Running β} {rest : List (Running α)}
    {rest' : List (Running β)} (hu : u.Alike R v)
    (hrest : List.Forall₂ (Running.Alike R) rest rest') :
    (p.collect u rest).Alike R (q.collect v rest') := by
  obtain ⟨houtline, hyielded⟩ := hu.event
  obtain ⟨hclock, hstuck, hstarts, hpeak, -, htrace⟩ := h
  have hfinish : max p.clock u.finish = max q.clock v.finish := by rw [hclock, hu.finish]
  exact ⟨hfinish, hstuck, hstarts, hpeak, hrest, htrace.concat houtline hyielded⟩

/-- A job is started. -/
lemma launch (h : p.Alike R q) {job : Job α} {job' : Job β} (hjob : job.Alike R job') :
    (p.launch job).Alike R (q.launch job') := by
  have hfetching := h.fetching
  obtain ⟨hclock, hstuck, hstarts, hpeak, hqueue, htrace⟩ := h
  cases hjob with
  | stuck hitem hc hc' =>
    rw [launch_of_stuck p job hc, launch_of_stuck q job' hc']
    refine ⟨hclock, congrArg (· + 1) hstuck, ?_, ?_, hqueue, htrace⟩
    · simp only [hstarts, hitem, hclock]
    · simp only [hpeak, hfetching]
  | ends hitem hc hc' halike =>
    rw [launch_of_ends p job hc, launch_of_ends q job' hc']
    refine ⟨hclock, hstuck, ?_, ?_, ?_, htrace⟩
    · simp only [hstarts, hitem, hclock]
    · simp only [hpeak, hfetching]
    · refine Running.Alike.enqueue ⟨?_, ?_, ?_, halike⟩ hqueue
      · simp only [hstarts]
      · simp only [hitem]
      · simp only [hclock]

/-- All jobs are collected. -/
lemma drainFrom {queue : List (Running α)} {queue' : List (Running β)} (h : p.Alike R q)
    (hqueue : List.Forall₂ (Running.Alike R) queue queue') :
    (p.drainFrom queue).Alike R (q.drainFrom queue') := by
  induction hqueue generalizing p q with
  | nil => exact h
  | cons hu hrest ih => exact ih (h.collect hu hrest)

/-- **Runs keep pools alike**: if their agendas start jobs alike, both return or neither does, and
the pools in the end differ in corresponding values only.

**Proof sketch.** Induction on the agendas, step by step. Whether a worker is free, and which job is
collected, is the same on either side. -/
theorem run (h : p.Alike R q) (workers : Nat) {steps : List (Step α)} {steps' : List (Step β)}
    (hsteps : List.Forall₂ (Step.Related (· = ·) (Job.Alike R)) steps steps') :
    (run workers p steps).pool.Alike R (run workers q steps').pool ∧
      (Pool.run workers p steps).returned = (Pool.run workers q steps').returned := by
  induction hsteps generalizing p q with
  | nil =>
    refine ⟨h.drainFrom h.queue, ?_⟩
    show (p.stuck == 0) = (q.stuck == 0)
    rw [h.stuck]
  | @cons step step' steps steps' hstep _ ih =>
    cases hstep with
    | await hdelay =>
      obtain rfl := hdelay
      exact ih (h.wait _)
    | reject name fault => exact ih (h.note rfl .nil)
    | close page listed selected => exact ih (h.note rfl .nil)
    | abandon page fault => exact ih (h.note rfl .nil)
    | start hjob =>
      have hflight := h.inFlight
      by_cases hfree : p.inFlight < workers
      · rw [run_start_of_free hfree, run_start_of_free (hflight ▸ hfree)]
        exact ih (h.launch hjob)
      · have hfull : ¬ q.inFlight < workers := hflight ▸ hfree
        have hqueue := h.queue
        rcases hp : p.queue with _ | ⟨u, rest⟩
        · rw [hp, List.forall₂_nil_left_iff] at hqueue
          rw [run_start_of_blocked hfree hp, run_start_of_blocked hfull hqueue]
          exact ⟨h, rfl⟩
        · rw [hp, List.forall₂_cons_left_iff] at hqueue
          obtain ⟨v, rest', hu, hrest, hq⟩ := hqueue
          rw [run_start_of_full hfree hp, run_start_of_full hfull hq]
          exact ih ((h.collect hu hrest).launch hjob)

end Alike

end Pool

/-! ### Reports side by side -/

variable (R) in
/-- **Reports that differ in corresponding values only.** -/
structure Report.Alike (r : Report α) (r' : Report β) : Prop where
  kind : r.kind = r'.kind
  trace : TracesAlike R r.trace r'.trace
  starts : r.starts = r'.starts
  peak : r.peak = r'.peak
  elapsed : r.elapsed = r'.elapsed

namespace Report.Alike

variable {r : Report α} {r' : Report β}

/-- Such reports are logged in the same way. -/
lemma records (h : r.Alike R r') :
    r.trace.map (Event.record r.kind) = r'.trace.map (Event.record r'.kind) := by
  rw [h.kind]
  exact h.trace.map_eq (Event.record_outline r'.kind) (Event.record_outline r'.kind)

/-- Such reports move the same counters. -/
lemma counters (h : r.Alike R r') :
    Event.counters r.kind r.trace = Event.counters r'.kind r'.trace := by
  have hmoved :=
    h.trace.map_eq (Event.counter?_outline r'.kind) (Event.counter?_outline r'.kind)
  have hfilter := congrArg (List.filterMap id) hmoved
  rw [List.filterMap_map, List.filterMap_map] at hfilter
  rw [h.kind]
  exact hfilter

/-- Pools that are alike in the end are reported alike: the event that sums up a load says how many
values are kept, and these are as many on either side. -/
lemma ofOutcome [BEq α] [BEq β] (hR : RespectsEquality R) {o : Outcome α} {o' : Outcome β}
    (h : o.pool.Alike R o'.pool) (hret : o.returned = o'.returned) (kind : ItemKind) :
    (Report.ofOutcome kind o).Alike R (Report.ofOutcome kind o') := by
  obtain ⟨hclock, -, hstarts, hpeak, -, htrace⟩ := h
  have hsummary : TracesAlike R
      (o.pool.trace ++ [.finished (Event.pagesDone o.pool.trace)
        (Event.harvest o.pool.trace).size (Event.harvest o.pool.trace).faults])
      (o'.pool.trace ++ [.finished (Event.pagesDone o'.pool.trace)
        (Event.harvest o'.pool.trace).size (Event.harvest o'.pool.trace).faults]) := by
    rw [htrace.pagesDone, htrace.size hR, htrace.faults]
    exact htrace.concat rfl .nil
  unfold Report.ofOutcome
  rw [hret]
  cases o'.returned with
  | false => exact ⟨rfl, htrace, hstarts, hpeak, rfl⟩
  | true => exact ⟨rfl, hsummary, hstarts, hpeak, congrArg some hclock⟩

end Report.Alike

/-! ### Loads side by side -/

namespace Load

variable {ι κ : Type}

variable (R) in
/-- **Loads that go through the same listing** with the same limits, and start jobs alike. -/
structure Alike (l : Load ι α) (m : Load κ β) : Prop where
  kind : l.kind = m.kind
  limits : l.limits = m.limits
  query : l.query = m.query
  listing : l.listing = m.listing
  jobs : ∀ item ∈ l.selected, (l.job item).Alike R (m.job item)

variable {l : Load ι α} {m : Load κ β}

/-- The runs behind such loads are alike. -/
lemma Alike.outcome (h : l.Alike R m) :
    l.outcome.pool.Alike R m.outcome.pool ∧ l.outcome.returned = m.outcome.returned := by
  have hpages : m.pages = l.pages := by rw [Load.pages, Load.pages, h.listing]
  have hsteps : List.Forall₂ (Step.Related (· = ·) (Job.Alike R))
      (Agenda.ofPages l.query l.job 0 l.pages) (Agenda.ofPages m.query m.job 0 m.pages) := by
    rw [← h.query, hpages]
    exact Agenda.related_ofPages l.query (List.forall₂_same.mpr fun _ _ => ⟨rfl, rfl⟩) h.jobs 0
  have hempty : ({} : Pool α).Alike R ({} : Pool β) := ⟨rfl, rfl, rfl, rfl, .nil, ⟨rfl, .nil⟩⟩
  rw [Load.outcome, Load.outcome, ← h.limits]
  exact hempty.run l.limits.workers hsteps

/-- **Loads that start jobs alike report alike.** -/
theorem Alike.report [BEq α] [BEq β] (h : l.Alike R m) (hR : RespectsEquality R) :
    l.report.Alike R m.report := by
  obtain ⟨hpool, hret⟩ := h.outcome
  cases hopen : l.listing with
  | error fault =>
    rw [report_of_error hopen, report_of_error (h.listing ▸ hopen), h.kind]
    exact ⟨rfl, ⟨rfl, .nil⟩, rfl, rfl, rfl⟩
  | ok pages =>
    rw [report_of_ok hopen, report_of_ok (h.listing ▸ hopen), h.kind]
    exact Report.Alike.ofOutcome hR hpool hret m.kind

end Load

end KeyIntake
