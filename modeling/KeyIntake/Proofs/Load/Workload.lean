import KeyIntake.Proofs.Load.Instants
import KeyIntake.Proofs.Load.Survival
import Mathlib.Algebra.Order.BigOperators.Group.List
import Mathlib.Algebra.Order.Group.Nat
import Mathlib.Data.List.MinMax
import Mathlib.Order.Nat
/-!
# How long a load takes

A load that returns takes as long as its pages, as its longest fetch, and as its workers need for
all fetches together. It takes hardly longer: whenever it waits for anything but a page, and is not
collecting its last jobs, all workers are busy. So the time beyond that of the pages, taken for all
workers, is the work done plus what the workers stand idle while the last job ends.

The account is kept step by step: the time of all workers so far and the work that is left to do in
the queue are together no less than the work started, and exceed it at most by the time of all
workers while pages were awaited.

## Main definitions

* `Page.waiting`, `Load.waiting` — the delays of the pages that are awaited, together.
* `Load.spans` — the effective lengths of the fetches of the selected items.
* `Pool.backlog` — the work that is left to do in the queue at an instant.
* `Pool.Balanced` — the account of a pool; `Pool.OnBeat` — all its instants are multiples of one.
* `Load.ConservesWork` — the bounds on the time that a load takes.

## Main results

* `Pool.Balanced.advance`, `Pool.Balanced.bounds` — steps keep the account, and what it means in the
  end.
* `Load.work_conserved` — a load that returns conserves work.
-/

set_option relaxedAutoImplicit false
set_option autoImplicit false

namespace KeyIntake

variable {α : Type}

/-! ### What there is to wait for -/

/-- The delays of the pages that are awaited, together: a page that fails is the last one. -/
def Page.waiting : List Page → Nat
  | [] => 0
  | page :: pages =>
    page.delay +
      match page.content with
      | .ok _ => waiting pages
      | .error _ => 0

/-- How long a page is awaited in a step. -/
def Step.delay : Step α → Nat
  | await delay => delay
  | reject _ _ | start _ | close _ _ _ | abandon _ _ => 0

/-- How long a job takes, if it ends. -/
def Job.duration? (job : Job α) : Option Nat := job.course.map Prod.fst

/-- The lengths of the jobs that some steps start. -/
def Step.durations (steps : List (Step α)) : List Nat :=
  (steps.filterMap Step.job?).filterMap Job.duration?

/-- A step starts its job before those of the steps behind it. -/
lemma Step.durations_cons (step : Step α) (steps : List (Step α)) :
    Step.durations (step :: steps) = Step.durations [step] ++ Step.durations steps := by
  rw [← List.singleton_append, durations, List.filterMap_append, List.filterMap_append]
  rfl

namespace Agenda

variable (q : TagQuery) (job : Item → Job α)

/-- The entries of a page are dealt with without awaiting a page. -/
lemma delay_ofEntries (entries : List ListingEntry) :
    ((ofEntries q job entries).map Step.delay).sum = 0 := by
  induction entries with
  | nil => rfl
  | cons entry rest ih =>
    cases entry with
    | unreadable name fault =>
      rw [ofEntries_cons_unreadable, List.map_cons, List.sum_cons, ih]
      rfl
    | readable item =>
      rw [ofEntries_cons_readable]
      by_cases hsel : q.selects item.tags = true
      · rw [if_pos hsel, List.map_cons, List.sum_cons, ih]
        rfl
      · rw [if_neg hsel, ih]

/-- The agenda of a listing awaits its pages up to the first that fails. -/
lemma delay_ofPages (n : Nat) (pages : List Page) :
    ((ofPages q job n pages).map Step.delay).sum = Page.waiting pages := by
  induction pages generalizing n with
  | nil => rfl
  | cons page pages ih =>
    cases hpage : page.content with
    | error fault =>
      rw [ofPages_cons_error q job n pages hpage]
      simp [Step.delay, Page.waiting, hpage]
    | ok entries =>
      rw [ofPages_cons_ok q job n pages hpage]
      simp [Step.delay, Page.waiting, hpage, delay_ofEntries, ih]

end Agenda

namespace Pool

/-! ### The work that is left to do -/

section Backlog

variable (p : Pool α)

/-- The work that is left to do in the queue at an instant. -/
def backlog (t : Nat) : Nat := (p.queue.map fun u => u.finish - t).sum

/-- Time reduces the work by no more than itself for each job. -/
lemma backlog_le {t t' : Nat} (ht : t ≤ t') :
    p.backlog t' ≤ p.backlog t ∧ p.backlog t ≤ p.queue.length * (t' - t) + p.backlog t' := by
  unfold backlog
  induction p.queue with
  | nil => simp
  | cons u rest ih =>
    obtain ⟨hle, hge⟩ := ih
    simp only [List.map_cons, List.sum_cons, List.length_cons, Nat.succ_mul]
    omega

/-- As long as all jobs go on, time reduces the work by itself for each job. -/
lemma backlog_eq_of_busy {t t' : Nat} (ht : t ≤ t') (hbusy : ∀ u ∈ p.queue, t' ≤ u.finish) :
    p.backlog t = p.queue.length * (t' - t) + p.backlog t' := by
  unfold backlog
  induction hqueue : p.queue generalizing p with
  | nil => simp
  | cons u rest ih =>
    rw [hqueue] at hbusy
    obtain ⟨hu, hrest⟩ := List.forall_mem_cons.mp hbusy
    have ih := ih { p with queue := rest } hrest rfl
    simp only [List.map_cons, List.sum_cons, List.length_cons, Nat.succ_mul]
    omega

/-- No work is left to do at the horizon. -/
lemma backlog_horizon : p.backlog p.horizon = 0 := by
  refine List.sum_eq_zero fun x hx => ?_
  obtain ⟨u, hu, rfl⟩ := List.mem_map.mp hx
  have hle := finish_le_horizon hu
  omega

variable {p}

/-- What is left of one job is part of the work that is left. -/
lemma sub_le_backlog {u : Running α} (hu : u ∈ p.queue) (t : Nat) :
    u.finish - t ≤ p.backlog t :=
  List.single_le_sum (fun _ _ => Nat.zero_le _) _ (List.mem_map_of_mem hu)

/-- A job that is started adds its length. -/
lemma backlog_launch {job : Job α} {c : Nat × Except Fault (List α)} (hc : job.course = some c) :
    (p.launch job).backlog p.clock = p.backlog p.clock + c.1 := by
  have hperm := queue_launch_perm p job
  rw [Job.running?, hc, Option.map_some, Option.toList_some] at hperm
  rw [backlog, (hperm.map _).sum_eq, List.map_append, List.sum_append]
  simp [backlog]

/-- **While all workers are busy no time is lost**: if the jobs in the queue are as many as there
are workers, waiting for the first of them to end takes as much work off the queue as the workers
spend time. -/
lemma balance_collect {workers : Nat} (hord : p.Ordered) (hbusy : p.queue.length = workers)
    {u : Running α} {rest : List (Running α)} (hq : p.queue = u :: rest) :
    workers * (p.collect u rest).clock + (p.collect u rest).backlog (p.collect u rest).clock =
      workers * p.clock + p.backlog p.clock := by
  have hclock : (p.collect u rest).clock = max p.clock u.finish := rfl
  have hended (t : Nat) (ht : u.finish ≤ t) : (p.collect u rest).backlog t = p.backlog t := by
    have hqueue : (p.collect u rest).queue = rest := rfl
    rw [backlog, backlog, hqueue, hq, List.map_cons, List.sum_cons]
    omega
  rw [hclock, hended _ (Nat.le_max_right _ _)]
  rcases Nat.le_total u.finish p.clock with hle | hle
  · rw [Nat.max_eq_left hle]
  · rw [Nat.max_eq_right hle, p.backlog_eq_of_busy hle (hord.finish_le hq), hbusy,
      ← Nat.add_assoc, ← Nat.mul_add, Nat.add_sub_cancel' hle]

end Backlog

/-! ### The account of a pool -/

/-- **The account of a pool** with a number of workers that has awaited pages for some time and has
started jobs of some lengths. -/
structure Balanced (workers waited : Nat) (spans : List Nat) (p : Pool α) : Prop where
  /-- Pages were awaited in the time that has passed. -/
  waited_le : waited ≤ p.clock
  /-- Each job ends after its length at least. -/
  span_le : ∀ d ∈ spans, d ≤ p.horizon
  /-- The work was done in the time of the workers, or it is left to do. -/
  work_le : spans.sum ≤ workers * p.clock + p.backlog p.clock
  /-- The workers had work to do all the time but for the pages that were awaited. -/
  le_work : workers * p.clock + p.backlog p.clock ≤ workers * waited + spans.sum
  /-- What is left of a job is no more than its length. -/
  left_le : ∀ u ∈ p.queue, ∃ d ∈ spans, u.finish ≤ p.clock + d

namespace Balanced

variable {workers waited : Nat} {spans : List Nat} {p p' p₀ : Pool α}

/-- The account of a pool that has done nothing yet. -/
lemma empty : Balanced workers 0 [] ({} : Pool α) where
  waited_le := le_rfl
  span_le _ hd := absurd hd List.not_mem_nil
  work_le := Nat.zero_le _
  le_work := le_rfl
  left_le _ hu := absurd hu List.not_mem_nil

/-- Awaiting a page keeps the account. -/
lemma wait (h : Balanced workers waited spans p) (hp : p.queue.length ≤ workers) (delay : Nat) :
    Balanced workers (waited + delay) spans (p.wait delay) := by
  obtain ⟨hwaited, hspan, hwork, hidle, hleft⟩ := h
  have hclock : (p.wait delay).clock = p.clock + delay := rfl
  have hbacklog : (p.wait delay).backlog = p.backlog := rfl
  obtain ⟨hle, hge⟩ := p.backlog_le (Nat.le_add_right p.clock delay)
  rw [Nat.add_sub_cancel_left] at hge
  have hmul : p.queue.length * delay ≤ workers * delay := Nat.mul_le_mul_right delay hp
  refine ⟨?_, fun d hd => (hspan d hd).trans (p.horizon_le_wait delay), ?_, ?_, fun u hu => ?_⟩
  · omega
  · rw [hclock, hbacklog, Nat.mul_add]
    omega
  · rw [hclock, hbacklog, Nat.mul_add, Nat.mul_add]
    omega
  · obtain ⟨d, hd, hfinish⟩ := hleft u hu
    exact ⟨d, hd, by omega⟩

/-- Noting an event keeps the account. -/
lemma note (h : Balanced workers waited spans p) (e : Event α) :
    Balanced workers waited spans (p.note e) where
  waited_le := h.waited_le
  span_le := by
    rw [horizon_note]
    exact h.span_le
  work_le := h.work_le
  le_work := h.le_work
  left_le := h.left_le

/-- Starting a job keeps the account. -/
lemma launch (h : Balanced workers waited spans p) {job : Job α}
    {c : Nat × Except Fault (List α)} (hc : job.course = some c) :
    Balanced workers waited (spans ++ [c.1]) (p.launch job) := by
  obtain ⟨hwaited, hspan, hwork, hidle, hleft⟩ := h
  obtain ⟨hhorizon, hend⟩ := p.le_horizon_launch job hc
  constructor
  · rw [clock_launch]
    exact hwaited
  · intro d hd
    rcases List.mem_append.mp hd with hd | hd
    · exact (hspan d hd).trans hhorizon
    · rw [List.mem_singleton.mp hd]
      omega
  · rw [clock_launch, backlog_launch hc, List.sum_append, List.sum_singleton]
    omega
  · rw [clock_launch, backlog_launch hc, List.sum_append, List.sum_singleton]
    omega
  · rw [clock_launch]
    intro u hu
    rcases List.mem_append.mp ((queue_launch_perm p job).mem_iff.mp hu) with hu | hu
    · obtain ⟨d, hd, hfinish⟩ := hleft u hu
      exact ⟨d, List.mem_append_left _ hd, hfinish⟩
    · rw [Job.running?, hc, Option.map_some, Option.mem_toList] at hu
      obtain rfl := Option.some.inj hu
      exact ⟨c.1, by simp, le_rfl⟩

/-- Making room for a job keeps the account: a job is waited for only while all workers are
busy. -/
lemma makesRoom (h : Balanced workers waited spans p) (hord : p.Ordered) (hp : p.inFlight ≤ workers)
    (hstuck : p.stuck = 0) (hroom : MakesRoom workers p p₀) :
    Balanced workers waited spans p₀ := by
  cases hroom with
  | stay _ => exact h
  | @collect hfull u rest hq =>
    obtain ⟨hwaited, hspan, hwork, hidle, hleft⟩ := h
    have hbusy : p.queue.length = workers := by
      rw [inFlight, hstuck] at hp hfull
      omega
    have hbalance := balance_collect hord hbusy hq
    have hlater : p.clock ≤ (p.collect u rest).clock := Nat.le_max_left _ _
    refine ⟨hwaited.trans hlater, fun d hd => ?_, ?_, ?_, fun v hv => ?_⟩
    · rw [horizon_collect hq]
      exact hspan d hd
    · rw [hbalance]
      exact hwork
    · rw [hbalance]
      exact hidle
    · obtain ⟨d, hd, hfinish⟩ := hleft v (by rw [hq]; exact List.mem_cons_of_mem u hv)
      exact ⟨d, hd, by omega⟩

/-- **A step keeps the account**: it adds its delay to the time that pages were awaited, and the
length of its job to those of the jobs that were started. -/
theorem advance (h : Balanced workers waited spans p) (hord : p.Ordered)
    (hp : p.inFlight ≤ workers) (hstuck : p.stuck = 0) {step : Step α}
    (hends : ∀ job ∈ step.job?, job.isStuck = false) (hadv : Advance workers p step p') :
    Balanced workers (waited + step.delay) (spans ++ Step.durations [step]) p' := by
  cases step with
  | start job =>
    obtain ⟨p₀, hroom, rfl⟩ := hadv.exists_room
    obtain ⟨c, hc⟩ := Job.exists_course (hends job (Option.mem_some_self job))
    have hdurations : Step.durations [.start job] = [c.1] := by
      simp [Step.durations, Step.job?, Job.duration?, hc]
    rw [hdurations]
    exact (h.makesRoom hord hp hstuck hroom).launch hc
  | await delay =>
    cases hadv with
    | wait _ =>
      have hlength : p.queue.length ≤ workers := (Nat.le_add_right _ _).trans hp
      have hwait := h.wait hlength delay
      rwa [← List.append_nil spans] at hwait
    | note _ he => exact absurd he.symm (List.cons_ne_nil _ _)
  | reject _ _ | close _ _ _ | abandon _ _ =>
    cases hadv with
    | @note _ e _ _ =>
      have hnote := h.note e
      rwa [← List.append_nil spans] at hnote

/-- **What the account means** for the instant at which the last job ends.

**Proof sketch.** The work that is left to do is done by then, by at most as many jobs as there are
workers. The last job to end accounts for one share of the time that is left, and the other workers
stand idle for no longer than that job is long. -/
theorem bounds (h : Balanced workers waited spans p) (hp : p.inFlight ≤ workers)
    (hpos : 0 < workers) {longest : Nat} (hlongest : ∀ d ∈ spans, d ≤ longest) :
    spans.sum ≤ workers * p.horizon ∧
      workers * p.horizon ≤ workers * waited + spans.sum + (workers - 1) * longest := by
  obtain ⟨-, -, hwork, hidle, hleft⟩ := h
  have hclock := p.clock_le_horizon
  obtain ⟨left, hhorizon⟩ := Nat.exists_eq_add_of_le hclock
  obtain ⟨n, rfl⟩ : ∃ n, workers = n + 1 := ⟨workers - 1, by omega⟩
  have hlength : p.queue.length ≤ n + 1 := (Nat.le_add_right _ _).trans hp
  constructor
  · have hdone := (p.backlog_le hclock).2
    have hmul : p.queue.length * (p.horizon - p.clock) ≤ (n + 1) * (p.horizon - p.clock) :=
      Nat.mul_le_mul_right _ hlength
    have hsplit : (n + 1) * p.horizon = (n + 1) * p.clock + (n + 1) * (p.horizon - p.clock) := by
      rw [← Nat.mul_add, Nat.add_sub_cancel' hclock]
    rw [backlog_horizon] at hdone
    omega
  · have hshare : left ≤ p.backlog p.clock ∧ left ≤ longest := by
      rcases p.horizon_cases with hnow | ⟨u, hu, hlast⟩
      · omega
      · obtain ⟨d, hd, hfinish⟩ := hleft u hu
        have hpart := sub_le_backlog hu p.clock
        have hle := hlongest d hd
        omega
    have hidlers : n * left ≤ n * longest := Nat.mul_le_mul_left n hshare.2
    rw [hhorizon, Nat.mul_add, Nat.add_sub_cancel, Nat.succ_mul n left]
    omega

end Balanced

/-- **The account of a pool and what it has still to do**: in the end, pages will have been awaited
for some time and jobs of some lengths will have been started. -/
structure Undone (workers waiting : Nat) (durations : List Nat) (p : Pool α)
    (steps : List (Step α)) : Prop where
  account : ∃ waited spans, p.Balanced workers waited spans ∧
    waited + (steps.map Step.delay).sum = waiting ∧ spans ++ Step.durations steps = durations
  ordered : p.Ordered
  inFlight_le : p.inFlight ≤ workers
  stuck_eq : p.stuck = 0
  ends : ∀ job ∈ steps.filterMap Step.job?, job.isStuck = false

/-- A step does its share of what is to be done. -/
lemma Undone.advance {workers waiting : Nat} {durations : List Nat} {p p' : Pool α}
    {step : Step α} {steps : List (Step α)} (h : Undone workers waiting durations p (step :: steps))
    (hadv : Advance workers p step p') : Undone workers waiting durations p' steps := by
  obtain ⟨⟨waited, spans, hbalanced, hwaited, hspans⟩, hord, hp, hstuck, hends⟩ := h
  obtain ⟨hstep, hsteps⟩ := Step.forall_jobs_cons hends
  refine ⟨⟨waited + step.delay, spans ++ Step.durations [step],
    hbalanced.advance hord hp hstuck hstep hadv, ?_, ?_⟩, hord.advance hadv,
    inFlight_advance hadv hp, ?_, hsteps⟩
  · rw [List.map_cons, List.sum_cons] at hwaited
    omega
  · rw [List.append_assoc, ← Step.durations_cons]
    exact hspans
  · rw [stuck_advance hadv, hstuck, Nat.zero_add, List.countP_eq_zero]
    intro job hjob
    rw [hstep job (Option.mem_toList.mp hjob)]
    exact Bool.false_ne_true

/-! ### Multiples of one length of time -/

/-- All instants of a pool are multiples of one length of time. -/
structure OnBeat (d : Nat) (p : Pool α) : Prop where
  clock : d ∣ p.clock
  finish : ∀ u ∈ p.queue, d ∣ u.finish

namespace OnBeat

variable {d workers : Nat} {p p' : Pool α}

/-- The last job ends at such an instant. -/
lemma horizon (h : OnBeat d p) : d ∣ p.horizon := by
  rcases p.horizon_cases with hnow | ⟨u, hu, hlast⟩
  · rw [hnow]
    exact h.clock
  · rw [hlast]
    exact h.finish u hu

/-- **Steps of such lengths keep to such instants.** -/
theorem advance (h : OnBeat d p) {step : Step α} (hdelay : d ∣ step.delay)
    (hspans : ∀ x ∈ Step.durations [step], d ∣ x) (hadv : Advance workers p step p') :
    OnBeat d p' := by
  cases step with
  | start job =>
    obtain ⟨p₀, hroom, rfl⟩ := hadv.exists_room
    have hroom : OnBeat d p₀ := by
      cases hroom with
      | stay _ => exact h
      | @collect _ u rest hq =>
        have hqueue := h.finish
        rw [hq, List.forall_mem_cons] at hqueue
        refine ⟨?_, hqueue.2⟩
        show d ∣ max p.clock u.finish
        rcases Nat.le_total u.finish p.clock with hle | hle
        · rw [Nat.max_eq_left hle]
          exact h.clock
        · rw [Nat.max_eq_right hle]
          exact hqueue.1
    refine ⟨by rw [clock_launch]; exact hroom.clock, fun u hu => ?_⟩
    rcases List.mem_append.mp ((queue_launch_perm p₀ job).mem_iff.mp hu) with hu | hu
    · exact hroom.finish u hu
    · obtain ⟨c, hc, rfl⟩ := Option.map_eq_some_iff.mp (Option.mem_toList.mp hu)
      refine Nat.dvd_add hroom.clock (hspans c.1 ?_)
      simp [Step.durations, Step.job?, Job.duration?, hc]
  | await delay =>
    cases hadv with
    | wait _ => exact ⟨Nat.dvd_add h.clock hdelay, h.finish⟩
    | note _ _ => exact ⟨h.clock, h.finish⟩
  | reject _ _ | close _ _ _ | abandon _ _ =>
    cases hadv with
    | note _ _ => exact ⟨h.clock, h.finish⟩

end OnBeat

/-- A pool keeps to multiples of one length of time in the steps to come. -/
structure KeepsBeat (d : Nat) (p : Pool α) (steps : List (Step α)) : Prop where
  onBeat : p.OnBeat d
  delays : ∀ step ∈ steps, d ∣ step.delay
  durations : ∀ x ∈ Step.durations steps, d ∣ x

/-- A step leaves the pool to keep to them in the others. -/
lemma KeepsBeat.advance {d workers : Nat} {p p' : Pool α} {step : Step α} {steps : List (Step α)}
    (h : KeepsBeat d p (step :: steps)) (hadv : Advance workers p step p') :
    KeepsBeat d p' steps := by
  obtain ⟨hp, hdelays, hdurations⟩ := h
  rw [List.forall_mem_cons] at hdelays
  rw [Step.durations_cons, List.forall_mem_append] at hdurations
  exact ⟨hp.advance hdelays.1 hdurations.1 hadv, hdelays.2, hdurations.2⟩

end Pool

/-! ### Loads -/

namespace Load

variable {ι : Type} (l : Load ι α)

/-- How long a load awaits its pages, up to the first that fails. -/
def waiting : Nat := Page.waiting l.pages

/-- The effective lengths of the fetches of the selected items, those that end or are cut off. -/
def spans : List Nat := l.selected.filterMap l.span?

/-- **The time that a load takes**, with a report, if it returns at an instant. -/
structure ConservesWork (r : Report α) (elapsed : Nat) : Prop where
  /-- The instant is the one reported. -/
  reported : r.elapsed = some elapsed
  /-- Each item that was started has an effective length, and these are all. -/
  spans : r.starts.map (fun s => l.span? s.item) = l.spans.map some
  /-- All pages have been awaited. -/
  waiting_le : l.waiting ≤ elapsed
  /-- The longest fetch has ended. -/
  longest_le : l.spans.foldr max 0 ≤ elapsed
  /-- The workers have done all the work. -/
  work_le : l.spans.sum ≤ max 1 l.limits.concurrency * elapsed
  /-- They stood idle only while pages were awaited and while the last fetch ended. -/
  le_work : max 1 l.limits.concurrency * (elapsed - l.waiting) ≤
    l.spans.sum + (max 1 l.limits.concurrency - 1) * l.spans.foldr max 0
  /-- A single worker that never awaits a page takes as long as the work. -/
  serial : l.waiting = 0 → max 1 l.limits.concurrency = 1 → elapsed = l.spans.sum
  /-- Fetches of one length, without pages to await, are made in rounds. -/
  uniform : ∀ d, l.waiting = 0 → (∀ x ∈ l.spans, x = d) →
    elapsed = d * ((r.starts.length + max 1 l.limits.concurrency - 1) /
      max 1 l.limits.concurrency)

/-- The lengths of the jobs of the agenda are those of the selected items. -/
lemma durations_agenda :
    Step.durations (Agenda.ofPages l.query l.job 0 l.pages) = l.spans := by
  rw [Step.durations, jobs_agenda, List.filterMap_map, spans]
  have hspan : Job.duration? ∘ l.job = l.span? := funext fun item => (l.span?_eq_course item).symm
  rw [hspan]

variable {l}

/-- **The account in the end**: all pages have been awaited and all jobs have been started. -/
lemma exists_balanced (h : l.outcome.returned = true) :
    ∃ q : Pool α, l.outcome.pool.clock = q.horizon ∧
      q.Balanced l.limits.workers l.waiting l.spans ∧ q.inFlight ≤ l.limits.workers := by
  have hends : ∀ job ∈ (Agenda.ofPages l.query l.job 0 l.pages).filterMap Step.job?,
      job.isStuck = false :=
    ((Pool.returned_run_iff _ _ _ l.limits.workers_pos (Nat.zero_le _)).mp h).2
  have hempty : Pool.Undone l.limits.workers l.waiting l.spans {}
      (Agenda.ofPages l.query l.job 0 l.pages) :=
    ⟨⟨0, [], .empty, by rw [Agenda.delay_ofPages, Nat.zero_add]; rfl, l.durations_agenda⟩,
      Pool.ordered_empty, Nat.zero_le _, rfl, hends⟩
  obtain ⟨q, hq, hclock⟩ := Pool.exists_clock_of_invariant Pool.Undone.advance hempty h
  obtain ⟨waited, spans, hbalanced, hwaited, hspans⟩ := hq.account
  rw [List.map_nil, List.sum_nil, Nat.add_zero] at hwaited
  have hnone : Step.durations ([] : List (Step α)) = [] := rfl
  rw [hnone, List.append_nil] at hspans
  subst hwaited hspans
  exact ⟨q, hclock, hbalanced, hq.inFlight_le⟩

/-- Fetches of one length, without pages to await, end at multiples of it. -/
lemma dvd_clock_outcome (h : l.outcome.returned = true) (hwaiting : l.waiting = 0) {d : Nat}
    (hspans : ∀ x ∈ l.spans, x = d) : d ∣ l.outcome.pool.clock := by
  have hdelays : ∀ step ∈ Agenda.ofPages l.query l.job 0 l.pages, d ∣ step.delay := by
    intro step hstep
    have hsum : ((Agenda.ofPages l.query l.job 0 l.pages).map Step.delay).sum = 0 := by
      rw [Agenda.delay_ofPages]
      exact hwaiting
    have hzero := List.sum_eq_zero_iff.mp hsum step.delay (List.mem_map_of_mem hstep)
    rw [hzero]
    exact Nat.dvd_zero d
  have hdurations : ∀ x ∈ Step.durations (Agenda.ofPages l.query l.job 0 l.pages), d ∣ x := by
    intro x hx
    rw [durations_agenda] at hx
    rw [hspans x hx]
  have hempty : Pool.KeepsBeat d {} (Agenda.ofPages l.query l.job 0 l.pages) :=
    ⟨⟨Nat.dvd_zero d, fun _ hu => absurd hu List.not_mem_nil⟩, hdelays, hdurations⟩
  obtain ⟨q, hq, hclock⟩ := Pool.exists_clock_of_invariant Pool.KeepsBeat.advance hempty h
  rw [outcome, hclock]
  exact hq.onBeat.horizon

/-- The number of rounds that a number of workers needs for some jobs. -/
lemma eq_rounds {workers n e : Nat} (hpos : 0 < workers) (hwork : n ≤ workers * e)
    (hidle : workers * e ≤ n + (workers - 1)) : e = (n + workers - 1) / workers := by
  rw [Nat.add_sub_assoc hpos]
  refine (Nat.div_eq_of_lt_le ?_ ?_).symm
  · rw [Nat.mul_comm]
    exact hidle
  · rw [Nat.succ_mul, Nat.mul_comm]
    omega

/-- **Fetches of one length are made in rounds** if no page is awaited.

**Proof sketch.** The load ends after a whole number of such lengths. The workers have done all the
work by then, and they stood idle for less than one more round. -/
theorem clock_outcome_of_uniform (h : l.outcome.returned = true) (hwaiting : l.waiting = 0)
    {d : Nat} (hspans : ∀ x ∈ l.spans, x = d) :
    l.outcome.pool.clock =
      d * ((l.spans.length + l.limits.workers - 1) / l.limits.workers) := by
  have hpos := l.limits.workers_pos
  obtain ⟨q, hclock, hbalanced, hflight⟩ := exists_balanced h
  obtain ⟨rounds, hrounds⟩ := dvd_clock_outcome h hwaiting hspans
  rcases Nat.eq_zero_or_pos d with rfl | hdpos
  · rw [hrounds, Nat.zero_mul, Nat.zero_mul]
  · have hsum : l.spans.sum = d * l.spans.length := by
      rw [List.eq_replicate_of_mem hspans, List.sum_replicate_nat, List.length_replicate,
        Nat.mul_comm]
    obtain ⟨hwork, hidle⟩ := hbalanced.bounds hflight hpos fun x hx => (hspans x hx).le
    rw [hsum, ← hclock, hrounds, Nat.mul_left_comm] at hwork hidle
    rw [hwaiting, Nat.mul_zero, Nat.zero_add, Nat.mul_comm _ d, ← Nat.mul_add] at hidle
    rw [hrounds, eq_rounds hpos (Nat.le_of_mul_le_mul_left hwork hdpos)
      (Nat.le_of_mul_le_mul_left hidle hdpos)]

variable [BEq α]

/-- Each item that is started has an effective length, and these are all. -/
lemma spans_report (hret : l.report.returned = true) :
    l.report.starts.map (fun s => l.span? s.item) = l.spans.map some := by
  have hspan : ∀ item ∈ l.selected, l.span? item = some ((l.span? item).getD 0) := by
    intro item hitem
    have hstuck := l.returned_outcome_iff.mp (by rwa [← returned_report]) item hitem
    rcases l.course_job item with ⟨hitem, -⟩ | ⟨d, -, hspan, -⟩
    · rw [hstuck] at hitem
      exact absurd hitem Bool.false_ne_true
    · rw [hspan, Option.getD_some]
  have hspans : l.spans = l.selected.map fun item => (l.span? item).getD 0 :=
    List.filterMap_eq_map_iff_forall_eq_some.mpr hspan
  rw [hspans, ← items_of_returned hret, List.map_map, List.map_map]
  refine List.map_congr_left fun s hs => hspan s.item ?_
  rw [← items_of_returned hret]
  exact List.mem_map_of_mem hs

/-- **Work conservation.** A load that returns does so at an instant at which its pages have been
awaited, its longest fetch has ended and its workers have done all the work; and its workers stood
idle only while pages were awaited and while the last fetch ended.

**Proof sketch.** The account of a pool holds of the one that has done nothing yet, and every step
keeps it. When the agenda is done it speaks of all pages and all fetches, and what it means for the
instant at which the last job ends is the claim. If all fetches are of one length and no page is
awaited, that instant is a multiple of it, and the bounds leave one. -/
theorem work_conserved (hret : l.report.returned = true) :
    ∃ elapsed, l.ConservesWork l.report elapsed := by
  have houtcome : l.outcome.returned = true := by rwa [← returned_report]
  have hpos := l.limits.workers_pos
  obtain ⟨q, hclock, hbalanced, hflight⟩ := exists_balanced houtcome
  have hlongest : ∀ d ∈ l.spans, d ≤ l.spans.foldr max 0 := fun d hd =>
    List.le_max_of_le hd le_rfl
  obtain ⟨hwork, hidle⟩ := hbalanced.bounds hflight hpos hlongest
  have hwaited : l.waiting ≤ q.horizon := hbalanced.waited_le.trans q.clock_le_horizon
  have hspans := spans_report hret
  refine ⟨q.horizon, ?_, hspans, hwaited, ?_, hwork, ?_, ?_, ?_⟩
  · rw [elapsed_report, if_pos houtcome, hclock]
  · exact List.max_le_of_forall_le _ _ hbalanced.span_le
  · show l.limits.workers * (q.horizon - l.waiting) ≤
      l.spans.sum + (l.limits.workers - 1) * l.spans.foldr max 0
    rw [Nat.mul_sub]
    omega
  · intro hwaiting hsingle
    have hworkers : l.limits.workers = 1 := hsingle
    rw [hworkers, hwaiting, Nat.one_mul] at hidle
    rw [hworkers, Nat.one_mul] at hwork
    omega
  · intro d hwaiting hd
    have hlength : l.report.starts.length = l.spans.length := by
      rw [← List.length_map (fun s => l.span? s.item), hspans, List.length_map]
    rw [hlength, ← hclock]
    exact clock_outcome_of_uniform houtcome hwaiting hd

/-- The load with every kind of trouble awaits pages for 3 milliseconds and fetches for 20, 10 of
them until a fetch is cut off. With its two workers it takes 13 milliseconds. -/
theorem work_conserved_troubled :
    troubled.waiting = 3 ∧ troubled.spans = [3, 10, 4, 3, 0] ∧
      troubled.ConservesWork troubled.report 13 := by
  obtain ⟨elapsed, h⟩ := work_conserved (l := troubled) (by decide)
  have hreported : troubled.report.elapsed = some 13 := by decide
  obtain rfl : elapsed = 13 := Option.some.inj (h.reported.symm.trans hreported)
  exact ⟨by decide, by decide, h⟩

end Load

end KeyIntake
