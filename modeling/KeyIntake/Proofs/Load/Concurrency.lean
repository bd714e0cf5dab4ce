import KeyIntake.Proofs.Load.Moment
import KeyIntake.Proofs.Load.Report
import Mathlib.Order.Bounds.Basic
/-!
# How many fetches go on at the same time

At every moment of a load at most as many jobs are in flight as there are workers, so at most as
many fetches go on. If nothing holds the load up and every fetch takes time, all workers get busy at
the same time, or all selected items are fetched at once.

## Main definitions

* `Moment.Bounded` — what holds of a pool at every moment of a run.
* `Load.Reaches` — the moments of a load.

## Main results

* `Moment.Bounded.leads` — the bounds are kept by whole runs.
* `Moment.exists_full` — all workers get busy.
* `Load.extends_outcome`, `Load.exists_over_iff_returned` — the moments of a load and its report.
* `Load.concurrency_bound` — the bound for loads, and when it is met.
-/

set_option relaxedAutoImplicit false
set_option autoImplicit false

namespace KeyIntake

namespace Moment

variable {α : Type} {workers total : Nat} {m m' : Moment α}

/-! ### The bounds -/

/-- What holds of a pool at every moment of a run that starts `total` jobs if it gets to its end. -/
structure Bounded (workers total : Nat) (m : Moment α) : Prop where
  inFlight_le : m.pool.inFlight ≤ workers
  inFlight_le_starts : m.pool.inFlight ≤ m.pool.starts.length
  fetching_le_peak : m.pool.fetching ≤ m.pool.peak
  peak_le : m.pool.peak ≤ workers
  peak_le_starts : m.pool.peak ≤ m.pool.starts.length
  starts_add : m.pool.starts.length + (m.todo.filterMap Step.job?).length = total

/-- No more fetches go on than there are jobs to be started. -/
lemma Bounded.peak_le_min (h : m.Bounded workers total) : m.pool.peak ≤ min workers total := by
  have hw := h.peak_le
  have hs := h.peak_le_starts
  have ht := h.starts_add
  omega

/-- **What happens between two moments keeps the bounds.** Only the start of a job adds to any of
the quantities, and it finds a worker that is free. -/
theorem Bounded.happens (h : m.Bounded workers total) (hstep : Happens workers m m') :
    m'.Bounded workers total := by
  obtain ⟨hflight, hstarts, hfetch, hpeak, hpeak', hadd⟩ := h
  cases hstep with
  | arrive p todo => exact ⟨hflight, hstarts, hfetch, hpeak, hpeak', hadd⟩
  | await p delay todo =>
    exact ⟨hflight, hstarts, (p.fetching_wait_le 1).trans hfetch, hpeak, hpeak', hadd⟩
  | note p todo hjob he =>
    rw [List.filterMap_cons_none hjob] at hadd
    exact ⟨hflight, hstarts, hfetch, hpeak, hpeak', hadd⟩
  | launch p job todo hfree =>
    have hle := p.fetching_launch_le job
    have hbusy := p.fetching_le_inFlight
    rw [Step.jobs_cons_start, List.length_cons] at hadd
    constructor <;> dsimp only at * <;>
      simp only [Pool.inFlight_launch, Pool.starts_launch, Pool.peak_launch, List.length_append,
        List.length_singleton] <;> omega
  | collect p todo hwait hq hdone =>
    have hcollect := Pool.inFlight_collect hq
    refine ⟨?_, ?_, (Pool.fetching_collect_le hq).trans hfetch, hpeak, hpeak', hadd⟩
    · exact (Nat.le_of_succ_le hcollect.le).trans hflight
    · exact (Nat.le_of_succ_le hcollect.le).trans hstarts
  | pass p todo hwait hbusy =>
    exact ⟨hflight, hstarts, (p.fetching_wait_le 1).trans hfetch, hpeak, hpeak', hadd⟩

/-- **The bounds hold at every moment** of a run if they hold at the first one. -/
theorem Bounded.leads (h : m.Bounded workers total) (hleads : Leads workers m m') :
    m'.Bounded workers total := by
  induction hleads with
  | refl => exact h
  | tail _ htick ih => exact ih.happens htick.happens

/-! ### All workers get busy -/

/-- **All workers get busy**, or all jobs are started at once, if no step has to be awaited and
every job takes time.

**Proof sketch.** Induction on the agenda. No time passes, so every job that was started still goes
on, and each start adds one until all workers are taken. -/
theorem exists_full (p : Pool α) (steps : List (Step α)) (hflight : p.inFlight ≤ workers)
    (hbusy : p.fetching = p.inFlight) (hawait : ∀ delay, Step.await delay ∈ steps → delay = 0)
    (hjobs : ∀ job ∈ steps.filterMap Step.job?, ∀ c ∈ job.course, 1 ≤ c.1) :
    ∃ m, Leads workers ⟨p, steps⟩ m ∧
      m.pool.fetching = min workers (p.inFlight + (steps.filterMap Step.job?).length) := by
  induction steps generalizing p with
  | nil => exact ⟨_, .refl, by simpa [hbusy] using hflight⟩
  | cons step steps ih =>
    have hrest : ∀ delay, Step.await delay ∈ steps → delay = 0 := fun delay hmem =>
      hawait delay (List.mem_cons_of_mem step hmem)
    have hnote (e : Event α) (hjob : step.job? = none)
        (htick : Tick workers ⟨p, step :: steps⟩ ⟨p.note e, steps⟩) :
        ∃ m, Leads workers ⟨p, step :: steps⟩ m ∧ m.pool.fetching =
          min workers (p.inFlight + ((step :: steps).filterMap Step.job?).length) := by
      rw [List.filterMap_cons_none hjob] at hjobs ⊢
      obtain ⟨m, hleads, hm⟩ := ih (p.note e) hflight hbusy hrest hjobs
      exact ⟨m, .head htick hleads, hm⟩
    cases step with
    | await delay =>
      obtain rfl := hawait delay List.mem_cons_self
      obtain ⟨m, hleads, hm⟩ := ih p hflight hbusy hrest hjobs
      exact ⟨m, .head rfl hleads, hm⟩
    | reject name fault => exact hnote _ rfl rfl
    | close page listed selected => exact hnote _ rfl rfl
    | abandon page fault => exact hnote _ rfl rfl
    | start job =>
      rw [Step.jobs_cons_start] at hjobs ⊢
      obtain ⟨hjob, hjobs⟩ := List.forall_mem_cons.mp hjobs
      by_cases hfree : p.inFlight < workers
      · have hlaunch := p.fetching_launch job hjob
        have hflight' := p.inFlight_launch job
        obtain ⟨m, hleads, hm⟩ := ih (p.launch job) (by omega) (by omega) hrest hjobs
        refine ⟨m, .head (if_pos hfree) hleads, ?_⟩
        rw [hm, hflight', List.length_cons]
        omega
      · refine ⟨_, .refl, ?_⟩
        dsimp only
        rw [List.length_cons]
        omega

end Moment

/-! ### Loads -/

namespace Load

variable {ι α : Type} (l : Load ι α)

/-- The moment at which the listing of a load has been opened. -/
def opening : Moment α := ⟨{}, Agenda.ofPages l.query l.job 0 l.pages⟩

/-- The moments of a load, also of one that never returns. -/
def Reaches (m : Moment α) : Prop := Moment.Leads l.limits.workers l.opening m

/-- The bounds hold at every moment of a load. -/
lemma bounded_of_reaches {m : Moment α} (h : l.Reaches m) :
    m.Bounded l.limits.workers l.selected.length := by
  have hopening : l.opening.Bounded l.limits.workers l.selected.length := by
    refine ⟨Nat.zero_le _, Nat.le_refl _, Nat.le_refl _, Nat.zero_le _, Nat.le_refl _, ?_⟩
    rw [opening, jobs_agenda, List.length_map]
    exact Nat.zero_add _
  exact hopening.leads h

/-- The outcome of the agenda is met at some moment of the load. -/
lemma exists_reaches_outcome : ∃ m, l.Reaches m ∧ m.pool = l.outcome.pool := by
  obtain ⟨m, hleads, hpool, -⟩ := Moment.leads_run {} (Agenda.ofPages l.query l.job 0 l.pages)
    (Nat.zero_le l.limits.workers)
  exact ⟨m, hleads, hpool⟩

/-- The history of any moment of a load is part of its outcome. -/
lemma extends_outcome {m : Moment α} (h : l.Reaches m) : m.pool.Extends l.outcome.pool :=
  Moment.extends_run _ _ (Nat.zero_le _) h

/-- All workers get busy, or all selected items are fetched at once, if no page is held up and every
fetch takes time. -/
lemma exists_reaches_full (hdelay : ∀ page ∈ l.pages, page.delay = 0)
    (hspan : ∀ item ∈ l.selected, ∀ d ∈ l.span? item, 1 ≤ d) :
    ∃ m, l.Reaches m ∧ m.pool.fetching = min l.limits.workers l.selected.length := by
  have hawait : ∀ delay, Step.await delay ∈ Agenda.ofPages l.query l.job 0 l.pages →
      delay = 0 := by
    intro delay hmem
    obtain ⟨page, hpage, rfl⟩ := Agenda.exists_page_of_await l.query l.job hmem
    exact hdelay page hpage
  have hjobs : ∀ job ∈ (Agenda.ofPages l.query l.job 0 l.pages).filterMap Step.job?,
      ∀ c ∈ job.course, 1 ≤ c.1 := by
    rw [jobs_agenda, List.forall_mem_map]
    intro item hitem c hc
    refine hspan item hitem c.1 ?_
    rw [span?_eq_course]
    exact Option.mem_map_of_mem Prod.fst hc
  have h := Moment.exists_full {} _ (Nat.zero_le l.limits.workers) rfl hawait hjobs
  have hzero : ({} : Pool α).inFlight = 0 := rfl
  rw [jobs_agenda, List.length_map, hzero, Nat.zero_add] at h
  exact h

section Report

variable [BEq α]

/-- **The moments of a load come to an end iff it returns.** -/
theorem exists_over_iff_returned :
    (∃ m, l.Reaches m ∧ m.Over l.limits.workers) ↔ l.report.returned = true := by
  rw [returned_report]
  exact Moment.exists_over_iff _ _ (Nat.zero_le _)

/-- **The concurrency bound.**

* At every moment of a load, whether or not it ever returns, at most as many jobs are in flight as
  its concurrency says, or one if it says none, and no more fetches go on than jobs are in flight.
* The report of the load has a peak within that bound, which no moment exceeds.
* If no page is held up and the fetch of each selected item takes at least a millisecond, the bound
  is met: the largest number of fetches that ever go on is the number of workers, or that of the
  selected items if there are fewer.

**Proof sketch.** The bounds hold at the opening and are kept by whatever happens. To meet them,
start jobs before the first millisecond has passed. -/
theorem concurrency_bound :
    (∀ m, l.Reaches m → m.pool.inFlight ≤ max 1 l.limits.concurrency ∧
        m.pool.fetching ≤ m.pool.inFlight ∧ m.pool.fetching ≤ l.report.peak) ∧
      l.report.peak ≤ max 1 l.limits.concurrency ∧
      ((∀ page ∈ l.pages, page.delay = 0) → (∀ item ∈ l.selected, ∀ d ∈ l.span? item, 1 ≤ d) →
        IsGreatest {n | ∃ m, l.Reaches m ∧ m.pool.fetching = n}
            (min (max 1 l.limits.concurrency) l.selected.length) ∧
          l.report.peak = min (max 1 l.limits.concurrency) l.selected.length) := by
  have hpeak {m : Moment α} (h : l.Reaches m) : m.pool.fetching ≤ l.report.peak := by
    rw [peak_report]
    exact (l.bounded_of_reaches h).fetching_le_peak.trans (l.extends_outcome h).peak
  have hmin : l.report.peak ≤ min l.limits.workers l.selected.length := by
    obtain ⟨m, hreach, hpool⟩ := l.exists_reaches_outcome
    rw [peak_report, ← hpool]
    exact (l.bounded_of_reaches hreach).peak_le_min
  refine ⟨fun m h => ⟨(l.bounded_of_reaches h).inFlight_le, m.pool.fetching_le_inFlight, hpeak h⟩,
    hmin.trans (Nat.min_le_left _ _), fun hdelay hspan => ?_⟩
  obtain ⟨m, hreach, hfull⟩ := l.exists_reaches_full hdelay hspan
  have hmeet : l.report.peak = min l.limits.workers l.selected.length :=
    Nat.le_antisymm hmin (hfull ▸ hpeak hreach)
  refine ⟨⟨⟨m, hreach, hfull⟩, ?_⟩, hmeet⟩
  rintro n ⟨m', hreach', rfl⟩
  exact (hpeak hreach').trans hmin

/-- The two workers of a load without a timeout get busy at the same time if it takes its secrets
from a source most of whose fetches never end. -/
theorem peak_stalling :
    (Source.stalling.secretLoad { concurrency := 2 } {} Mapping.whole).report.peak = 2 ∧
      ∃ m, (Source.stalling.secretLoad { concurrency := 2 } {} Mapping.whole).Reaches m ∧
        m.pool.fetching = 2 := by
  obtain ⟨hgreatest, hpeak⟩ :=
    (concurrency_bound (Source.stalling.secretLoad { concurrency := 2 } {} Mapping.whole)).2.2
      (by decide) (by decide)
  exact ⟨hpeak, hgreatest.1⟩

end Report

end Load

end KeyIntake
