import KeyIntake.Load.Pool
import KeyIntake.Proofs.Load.Agenda
/-!
# What the operations of a pool do

For each operation of a pool: what it does to the jobs in flight, to the starts and to the trace.
Proofs about whole runs cite these facts and do not look into the operations.

## Main definitions

* `Pool.Advance` — what a step of an agenda does to a pool.
* `Pool.Blocked` — a step that is waited for forever.

## Main results

* `Pool.inFlight_launch`, `Pool.inFlight_collect` — starting a job adds one job in flight,
  collecting one removes it.
* `Pool.events_launch` — a started job adds its events to those that the queue will yield.
* `Pool.trace_drainFrom` — collecting a queue notes its events in order.
* `Pool.run_cons` — a run goes step by step, and what each step can do.
-/

set_option relaxedAutoImplicit false
set_option autoImplicit false

namespace KeyIntake

variable {α : Type}

namespace Running

/-- A queue with one more job holds that job and the others. -/
lemma enqueue_perm (u : Running α) (queue : List (Running α)) :
    (u.enqueue queue).Perm (u :: queue) := by
  induction queue with
  | nil => exact List.Perm.refl _
  | cons v queue ih =>
    rw [enqueue]
    split
    · exact List.Perm.refl _
    · exact (ih.cons v).trans (List.Perm.swap u v queue)

/-- A queue with one more job is longer by one. -/
@[simp] lemma length_enqueue (u : Running α) (queue : List (Running α)) :
    (u.enqueue queue).length = queue.length + 1 :=
  (u.enqueue_perm queue).length_eq

/-- What is noted of a collected job is the end of a job. -/
lemma isOfJob_event (u : Running α) : u.event.isOfJob = true := by
  unfold event
  split <;> rfl

end Running

namespace Pool

/-! ### Notes and waiting -/

section Operations

variable (p : Pool α)

/-- Fetches only end while time passes. -/
lemma fetching_wait_le (delay : Nat) : (p.wait delay).fetching ≤ p.fetching := by
  refine Nat.add_le_add_right (List.countP_mono_left fun u _ hu => ?_) _
  have hlt : p.clock + delay < u.finish := of_decide_eq_true hu
  exact decide_eq_true (by omega)

/-- No more fetches go on than jobs are in flight. -/
lemma fetching_le_inFlight : p.fetching ≤ p.inFlight :=
  Nat.add_le_add_right List.countP_le_length _

/-! ### Starting a job -/

variable (job : Job α)

/-- Starting a job that never ends. -/
lemma launch_of_stuck (h : job.course = none) :
    p.launch job =
      { p with
        starts := p.starts ++ [Start.mk job.item p.clock]
        peak := max p.peak (p.fetching + 1)
        stuck := p.stuck + 1 } := by
  simp only [launch, h]

/-- Starting a job that will end. -/
lemma launch_of_ends {duration : Nat} {outcome : Except Fault (List α)}
    (h : job.course = some (duration, outcome)) :
    p.launch job =
      { p with
        starts := p.starts ++ [Start.mk job.item p.clock]
        peak := max p.peak (p.fetching + 1)
        queue := Running.enqueue
          ⟨p.starts.length, job.item.name, p.clock + duration, outcome⟩ p.queue } := by
  simp only [launch, h]

@[simp] lemma trace_launch : (p.launch job).trace = p.trace := by
  unfold launch
  split <;> rfl

@[simp] lemma starts_launch :
    (p.launch job).starts = p.starts ++ [Start.mk job.item p.clock] := by
  unfold launch
  split <;> rfl

@[simp] lemma peak_launch : (p.launch job).peak = max p.peak (p.fetching + 1) := by
  unfold launch
  split <;> rfl

/-- A job that never ends stays in the pool. -/
lemma stuck_launch : (p.launch job).stuck = p.stuck + if job.isStuck then 1 else 0 := by
  rcases h : job.course with _ | ⟨duration, outcome⟩
  · rw [launch_of_stuck p job h]
    simp [Job.isStuck, h]
  · rw [launch_of_ends p job h]
    simp [Job.isStuck, h]

/-- One more job is in flight, whether it ends or not. -/
@[simp] lemma inFlight_launch : (p.launch job).inFlight = p.inFlight + 1 := by
  rcases h : job.course with _ | ⟨duration, outcome⟩
  · rw [launch_of_stuck p job h]
    exact (Nat.add_assoc _ _ _).symm
  · rw [launch_of_ends p job h]
    simp only [inFlight, Running.length_enqueue]
    omega

/-- At most one more fetch goes on: a fetch without delay is over at once. -/
lemma fetching_launch_le : (p.launch job).fetching ≤ p.fetching + 1 := by
  rcases h : job.course with _ | ⟨duration, outcome⟩
  · rw [launch_of_stuck p job h]
    exact (Nat.add_assoc _ _ _).symm.le
  · rw [launch_of_ends p job h]
    simp only [fetching, (Running.enqueue_perm _ p.queue).countP_eq, List.countP_cons]
    split <;> omega

/-- One more fetch goes on if it takes any time at all. -/
lemma fetching_launch (h : ∀ c ∈ job.course, 1 ≤ c.1) :
    (p.launch job).fetching = p.fetching + 1 := by
  rcases hc : job.course with _ | ⟨duration, outcome⟩
  · rw [launch_of_stuck p job hc]
    exact (Nat.add_assoc _ _ _).symm
  · rw [launch_of_ends p job hc]
    have hpos : 1 ≤ duration := h (duration, outcome) (Option.mem_def.mpr hc)
    have hlt : decide (p.clock < p.clock + duration) = true := decide_eq_true (by omega)
    simp only [fetching, (Running.enqueue_perm _ p.queue).countP_eq, List.countP_cons, hlt,
      ↓reduceIte]
    omega

/-- **A started job adds its events** to those that collecting the queue will note. -/
lemma events_launch :
    ((p.launch job).queue.map Running.event).Perm
      (p.queue.map Running.event ++ job.events) := by
  rcases h : job.course with _ | ⟨duration, outcome⟩
  · rw [launch_of_stuck p job h]
    simp [Job.events, h]
  · rw [launch_of_ends p job h]
    have hevents : job.events =
        [Running.event ⟨p.starts.length, job.item.name, p.clock + duration, outcome⟩] := by
      cases outcome <;> simp [Job.events, Running.event, h]
    rw [hevents]
    exact ((Running.enqueue_perm _ p.queue).map _).trans (List.perm_append_singleton _ _).symm

/-! ### Collecting jobs -/

variable {p} {u : Running α} {rest : List (Running α)}

/-- A collected job is no longer in flight. -/
lemma inFlight_collect (h : p.queue = u :: rest) :
    (p.collect u rest).inFlight + 1 = p.inFlight := by
  simp only [inFlight, collect, h, List.length_cons]
  omega

/-- Fetches only end while a job is waited for. -/
lemma fetching_collect_le (h : p.queue = u :: rest) :
    (p.collect u rest).fetching ≤ p.fetching := by
  unfold fetching
  rw [h]
  refine Nat.add_le_add_right (le_trans (List.countP_mono_left fun v _ hv => ?_)
    (List.sublist_cons_self u rest).countP_le) _
  have hlt : max p.clock u.finish < v.finish := of_decide_eq_true hv
  exact decide_eq_true (by omega)

variable (p)

/-- Collecting a queue notes its events in order. -/
lemma trace_drainFrom (queue : List (Running α)) :
    (p.drainFrom queue).trace = p.trace ++ queue.map Running.event := by
  induction queue generalizing p with
  | nil => exact (List.append_nil _).symm
  | cons u rest ih =>
    rw [drainFrom, ih]
    exact List.append_assoc _ _ _

/-- Collecting jobs starts none and makes no fetch go on. -/
lemma drainFrom_frame (queue : List (Running α)) :
    (p.drainFrom queue).starts = p.starts ∧ (p.drainFrom queue).stuck = p.stuck ∧
      (p.drainFrom queue).peak = p.peak := by
  induction queue generalizing p with
  | nil => exact ⟨rfl, rfl, rfl⟩
  | cons u rest ih => exact ih (p.collect u rest)

end Operations

/-! ### Steps of a run -/

/-- What one step of an agenda does to a pool, if the pool gets beyond it. -/
inductive Advance (workers : Nat) (p : Pool α) : Step α → Pool α → Prop where
  /-- A page is awaited. -/
  | wait (delay : Nat) : Advance workers p (.await delay) (p.wait delay)
  /-- A step that starts no job is noted. -/
  | note {step : Step α} {e : Event α} (hjob : step.job? = none) (he : step.events = [e]) :
      Advance workers p step (p.note e)
  /-- A worker is free for the job. -/
  | launch (job : Job α) (hfree : p.inFlight < workers) :
      Advance workers p (.start job) (p.launch job)
  /-- The job takes the place of the one that ends first. -/
  | relay (job : Job α) (hfull : ¬ p.inFlight < workers) {u : Running α}
      {rest : List (Running α)} (hq : p.queue = u :: rest) :
      Advance workers p (.start job) ((p.collect u rest).launch job)

/-- The job of a step is waited for forever: all workers are taken by jobs that never end. -/
structure Blocked (workers : Nat) (p : Pool α) (step : Step α) : Prop where
  isJob : ∃ job, step = .start job
  full : ¬ p.inFlight < workers
  queue_eq_nil : p.queue = []

/-- A run ends before a step that is waited for forever, whatever comes after it. -/
lemma Blocked.run_eq {workers : Nat} {p : Pool α} {step : Step α} (h : Blocked workers p step)
    (steps : List (Step α)) : run workers p (step :: steps) = ⟨p, false⟩ := by
  obtain ⟨⟨job, rfl⟩, hfull, hq⟩ := h
  rw [run, if_neg hfull]
  simp only [hq]

/-- **A run goes step by step**: either the pool gets beyond the first step and the run goes on from
there, or the run ends before that step because its job is waited for forever. -/
theorem run_cons (workers : Nat) (p : Pool α) (step : Step α) :
    (∃ p', Advance workers p step p' ∧
        ∀ steps, run workers p (step :: steps) = run workers p' steps) ∨
      (Blocked workers p step ∧ ∀ steps, run workers p (step :: steps) = ⟨p, false⟩) := by
  cases step with
  | await delay => exact .inl ⟨_, .wait delay, fun _ => rfl⟩
  | reject name fault => exact .inl ⟨_, .note rfl rfl, fun _ => rfl⟩
  | close page listed selected => exact .inl ⟨_, .note rfl rfl, fun _ => rfl⟩
  | abandon page fault => exact .inl ⟨_, .note rfl rfl, fun _ => rfl⟩
  | start job =>
    by_cases hfree : p.inFlight < workers
    · exact .inl ⟨_, .launch job hfree, fun steps => by rw [run, if_pos hfree]⟩
    · cases hq : p.queue with
      | nil =>
        have hblock : Blocked workers p (.start job) := ⟨⟨job, rfl⟩, hfree, hq⟩
        exact .inr ⟨hblock, hblock.run_eq⟩
      | cons u rest =>
        refine .inl ⟨_, .relay job hfree hq, fun steps => ?_⟩
        rw [run, if_neg hfree]
        simp only [hq]

/-- A run whose agenda is done collects the jobs that are left. -/
lemma run_nil (workers : Nat) (p : Pool α) : run workers p [] = p.drain := rfl

end Pool

end KeyIntake
