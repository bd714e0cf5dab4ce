import KeyIntake.Proofs.Load.Collection
import KeyIntake.Proofs.Load.Report
/-!
# The instants of a run

When a job is started depends on when the jobs before it end, and when a run returns depends on when
the last of its jobs ends. Here it is said how the steps of an agenda move these instants, so that
runs can be compared with each other and with the work that they do.

## Main definitions

* `Pool.horizon` — the instant at which all jobs of the queue have ended.
* `Pool.pending` — how many jobs of the queue go on beyond an instant.
* `Pool.MakesRoom` — what a pool does before it starts a job.

## Main results

* `Pool.horizon_le_iff` — what is known of an instant by which all jobs have ended.
* `Pool.Advance.exists_room` — a job is started in a pool that has made room for it.
* `Pool.finish_le_of_pending_lt` — the first job of the queue has ended if not all jobs go on.
* `Pool.exists_clock_of_invariant` — what every step keeps holds when the agenda is done.
* `Load.elapsed_report` — a load returns at the instant that its agenda gets to.
-/

set_option relaxedAutoImplicit false
set_option autoImplicit false

namespace KeyIntake

variable {α : Type}

/-- A job that is not stuck takes a course. -/
lemma Job.exists_course {job : Job α} (h : job.isStuck = false) : ∃ c, job.course = some c := by
  rwa [isStuck, Option.isNone_eq_false_iff, Option.isSome_iff_exists] at h

/-- What holds of the jobs of an agenda holds of that of its first step and of those behind it. -/
lemma Step.forall_jobs_cons {P : Job α → Prop} {step : Step α} {steps : List (Step α)}
    (h : ∀ job ∈ (step :: steps).filterMap job?, P job) :
    (∀ job ∈ step.job?, P job) ∧ ∀ job ∈ steps.filterMap job?, P job := by
  constructor
  · intro job hjob
    exact h job (List.mem_filterMap.mpr ⟨step, List.mem_cons_self, hjob⟩)
  · intro job hjob
    obtain ⟨step', hstep', hjob⟩ := List.mem_filterMap.mp hjob
    exact h job (List.mem_filterMap.mpr ⟨step', List.mem_cons_of_mem step hstep', hjob⟩)

namespace Pool

section Instants

variable (p : Pool α) {u : Running α} {rest : List (Running α)}

/-! ### The last job of the queue -/

/-- The instant at which all jobs of the queue have ended; the present one if they have already. -/
def horizon : Nat := (p.drainFrom p.queue).clock

/-- Collecting a queue takes until all its jobs have ended. -/
lemma clock_drainFrom_le_iff (queue : List (Running α)) (t : Nat) :
    (p.drainFrom queue).clock ≤ t ↔ p.clock ≤ t ∧ ∀ u ∈ queue, u.finish ≤ t := by
  induction queue generalizing p with
  | nil => simp [drainFrom]
  | cons u rest ih =>
    rw [drainFrom, ih, List.forall_mem_cons]
    have hclock : (p.collect u rest).clock = max p.clock u.finish := rfl
    rw [hclock, Nat.max_le, and_assoc]

/-- **By when all jobs have ended**: the instant is not in the past, and each job has ended. -/
theorem horizon_le_iff {t : Nat} :
    p.horizon ≤ t ↔ p.clock ≤ t ∧ ∀ u ∈ p.queue, u.finish ≤ t :=
  p.clock_drainFrom_le_iff p.queue t

/-- The horizon is not in the past. -/
lemma clock_le_horizon : p.clock ≤ p.horizon := (p.horizon_le_iff.mp le_rfl).1

variable {p} in
/-- The horizon lies behind the end of every job of the queue. -/
lemma finish_le_horizon (hu : u ∈ p.queue) : u.finish ≤ p.horizon :=
  (p.horizon_le_iff.mp le_rfl).2 u hu

/-- The horizon is the present instant or the end of a job. -/
lemma horizon_cases : p.horizon = p.clock ∨ ∃ u ∈ p.queue, p.horizon = u.finish := by
  by_contra hno
  push Not at hno
  obtain ⟨hclock, hfinish⟩ := hno
  -- otherwise all jobs would have ended a millisecond before
  have hpos := p.clock_le_horizon
  have hbefore : p.horizon ≤ p.horizon - 1 := by
    refine p.horizon_le_iff.mpr ⟨by omega, fun u hu => ?_⟩
    have hle := finish_le_horizon hu
    have hne := hfinish u hu
    omega
  omega

variable {p} in
/-- Collecting the first job of the queue leaves the horizon where it is. -/
lemma horizon_collect (hq : p.queue = u :: rest) : (p.collect u rest).horizon = p.horizon := by
  have hqueue : (p.collect u rest).queue = rest := rfl
  rw [horizon, horizon, hqueue, hq, drainFrom]

/-- An event that is noted takes no time. -/
lemma horizon_note (e : Event α) : (p.note e).horizon = p.horizon :=
  eq_of_forall_ge_iff fun _ => (p.note e).horizon_le_iff.trans p.horizon_le_iff.symm

/-- A job that is started moves the horizon behind its end. -/
lemma le_horizon_launch (job : Job α) {c : Nat × Except Fault (List α)} (hc : job.course = some c) :
    p.horizon ≤ (p.launch job).horizon ∧ p.clock + c.1 ≤ (p.launch job).horizon := by
  have hperm := queue_launch_perm p job
  rw [Job.running?, hc, Option.map_some, Option.toList_some] at hperm
  have hclock := (p.launch job).clock_le_horizon
  rw [clock_launch] at hclock
  constructor
  · refine p.horizon_le_iff.mpr ⟨hclock, fun u hu => finish_le_horizon ?_⟩
    exact hperm.mem_iff.mpr (List.mem_append_left _ hu)
  · have hmem := hperm.mem_iff.mpr (List.mem_append_right p.queue (List.mem_singleton_self _))
    exact finish_le_horizon hmem

/-- Waiting does not bring the horizon nearer. -/
lemma horizon_le_wait (delay : Nat) : p.horizon ≤ (p.wait delay).horizon := by
  refine p.horizon_le_iff.mpr ⟨?_, fun u hu => finish_le_horizon (p := p.wait delay) hu⟩
  exact (Nat.le_add_right p.clock delay).trans (p.wait delay).clock_le_horizon

/-! ### The jobs that go on -/

/-- The number of jobs of the queue that go on beyond an instant. -/
def pending (t : Nat) : Nat := p.queue.countP fun u => t < u.finish

/-- No more jobs go on than are in flight. -/
lemma pending_le_inFlight (t : Nat) : p.pending t ≤ p.inFlight :=
  List.countP_le_length.trans (Nat.le_add_right _ _)

/-- A job that is started goes on until its end. -/
lemma pending_launch (job : Job α) {c : Nat × Except Fault (List α)} (hc : job.course = some c)
    (t : Nat) :
    (p.launch job).pending t = p.pending t + if t < p.clock + c.1 then 1 else 0 := by
  have hperm := queue_launch_perm p job
  rw [Job.running?, hc, Option.map_some, Option.toList_some] at hperm
  rw [pending, hperm.countP_eq, List.countP_append, List.countP_singleton]
  simp only [pending, decide_eq_true_eq]

variable {p}

/-- A job that has ended makes no difference to those that go on. -/
lemma pending_collect (hq : p.queue = u :: rest) {t : Nat} (ht : u.finish ≤ t) :
    (p.collect u rest).pending t = p.pending t := by
  have hqueue : (p.collect u rest).queue = rest := rfl
  rw [pending, pending, hqueue, hq, List.countP_cons, if_neg (by simpa using ht), Nat.add_zero]

/-- Nothing goes on beyond the horizon. -/
lemma pending_eq_zero_iff {t : Nat} : p.pending t = 0 ↔ ∀ u ∈ p.queue, u.finish ≤ t := by
  simp [pending, List.countP_eq_zero]

/-- The first job of the queue ends no later than the others. -/
lemma Ordered.finish_le (h : p.Ordered) (hq : p.queue = u :: rest) :
    ∀ v ∈ p.queue, u.finish ≤ v.finish := by
  have hsorted := h.sorted
  rw [hq] at hsorted ⊢
  intro v hv
  rcases List.mem_cons.mp hv with rfl | hv
  · exact le_rfl
  · have hbefore := (List.pairwise_cons.mp hsorted).1 v hv
    unfold Running.Before at hbefore
    omega

/-- **The first job of the queue has ended** if some job has. -/
lemma finish_le_of_pending_lt (h : p.Ordered) (hq : p.queue = u :: rest) {t : Nat}
    (ht : p.pending t < p.queue.length) : u.finish ≤ t := by
  by_contra hlate
  have hall : p.pending t = p.queue.length := by
    refine List.countP_eq_length.mpr fun v hv => ?_
    have hle := h.finish_le hq v hv
    rw [decide_eq_true_eq]
    omega
  omega

end Instants

/-! ### Making room for a job -/

/-- **What a pool does before it starts a job**: nothing if a worker is free, else it collects the
first job of the queue. -/
inductive MakesRoom (workers : Nat) (p : Pool α) : Pool α → Prop where
  /-- A worker is free. -/
  | stay (hfree : p.inFlight < workers) : MakesRoom workers p p
  /-- A job is collected. -/
  | collect (hfull : ¬ p.inFlight < workers) {u : Running α} {rest : List (Running α)}
      (hq : p.queue = u :: rest) : MakesRoom workers p (p.collect u rest)

variable {workers : Nat} {p p₀ p' : Pool α}

/-- A job is started in a pool that has made room for it. -/
lemma Advance.exists_room {job : Job α} (h : Advance workers p (.start job) p') :
    ∃ p₀, MakesRoom workers p p₀ ∧ p' = p₀.launch job := by
  cases h with
  | note hjob he => exact absurd hjob (Option.some_ne_none job)
  | launch _ hfree => exact ⟨p, .stay hfree, rfl⟩
  | relay _ hfull hq => exact ⟨_, .collect hfull hq, rfl⟩

/-- A pool that has made room has a free worker. -/
lemma MakesRoom.inFlight_lt (h : MakesRoom workers p p₀) (hp : p.inFlight ≤ workers) :
    p₀.inFlight < workers := by
  cases h with
  | stay hfree => exact hfree
  | collect hfull hq =>
    have hcollect := inFlight_collect hq
    omega

/-- A step keeps the queue in order. -/
lemma Ordered.advance (h : p.Ordered) {step : Step α} (hadv : Advance workers p step p') :
    p'.Ordered := by
  cases hadv with
  | wait delay => exact ⟨h.sorted, h.index_lt⟩
  | note hjob he => exact ⟨h.sorted, h.index_lt⟩
  | launch job hfree => exact h.launch job
  | relay job hfull hq => exact (h.collect hq).launch job

/-- **What every step keeps holds when the agenda is done.** A run that returns gets beyond every
step, so what holds of a pool and the steps to come, and is kept by each step, holds of some pool
with no steps to come, and the run returns when the last job of that pool has ended. -/
theorem exists_clock_of_invariant {Inv : Pool α → List (Step α) → Prop}
    (hstep : ∀ {p p' : Pool α} {step : Step α} {steps : List (Step α)},
      Inv p (step :: steps) → Advance workers p step p' → Inv p' steps)
    {steps : List (Step α)} (h : Inv p steps) (hret : (run workers p steps).returned = true) :
    ∃ q, Inv q [] ∧ (run workers p steps).pool.clock = q.horizon := by
  induction steps generalizing p with
  | nil => exact ⟨p, h, rfl⟩
  | cons step steps ih =>
    rcases run_cons workers p step with ⟨p', hadv, hrun⟩ | ⟨-, hrun⟩
    · rw [hrun] at hret ⊢
      exact ih (hstep h hadv) hret
    · rw [hrun] at hret
      exact absurd hret Bool.false_ne_true

/-- The queue of a pool that has done nothing yet is in order. -/
lemma ordered_empty : ({} : Pool α).Ordered :=
  ⟨List.Pairwise.nil, fun _ hu => absurd hu List.not_mem_nil⟩

end Pool

/-! ### The instant of return -/

namespace Load

variable {ι : Type} (l : Load ι α) [BEq α]

/-- **A load returns at the instant that its agenda gets to**, if it gets to its end. -/
theorem elapsed_report :
    l.report.elapsed = if l.outcome.returned then some l.outcome.pool.clock else none := by
  cases h : l.listing with
  | error fault =>
    rw [report_of_error h, outcome, pages_of_error l h]
    rfl
  | ok pages => rw [report_of_ok h, Report.ofOutcome]

end Load

end KeyIntake
