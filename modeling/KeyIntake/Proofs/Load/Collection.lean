import KeyIntake.Proofs.Load.Progress
/-!
# The order in which jobs are collected

A job is collected when its place is needed or when the agenda is done. In between, jobs are started
and time passes, so the jobs to choose from change all the time. Still the jobs of a whole run are
collected in one order: by the instants at which they end and, where these are equal, by their
numbers. With a single worker that is the order in which they were started.

## Main definitions

* `Running.Before` — the order.
* `Pool.collected` — the jobs that a run collects, as it collects them.
* `Job.running?`, `Start.units` — the jobs that were started, with the instants at which they end.
* `Pool.Ordered` — the queue of a pool is in order.

## Main results

* `Pool.events_collected` — what a run notes of jobs is what it notes of the collected ones.
* `Pool.collected_perm` — the jobs collected are those that were started and end.
* `Pool.pairwise_collected` — they are collected in order.
* `Pool.pairwise_collected_one` — with one worker they are collected as they were started.
-/

set_option relaxedAutoImplicit false
set_option autoImplicit false

namespace KeyIntake

variable {α : Type}

/-! ### The order of jobs -/

namespace Running

/-- A job comes before another one if it ends earlier, or at the same instant but was started
earlier. -/
def Before (u v : Running α) : Prop :=
  u.finish < v.finish ∨ u.finish = v.finish ∧ u.index < v.index

instance (u v : Running α) : Decidable (u.Before v) :=
  inferInstanceAs (Decidable (_ ∨ _ ∧ _))

/-- Of two jobs only one comes before the other. -/
lemma Before.asymm {u v : Running α} (h : u.Before v) : ¬ v.Before u := by
  unfold Before at *
  omega

/-- The order is transitive. -/
lemma Before.trans {u v w : Running α} (h : u.Before v) (k : v.Before w) : u.Before w := by
  unfold Before at *
  omega

/-- A queue in order stays so when the latest job enters it. -/
lemma pairwise_enqueue {u : Running α} {queue : List (Running α)} (h : queue.Pairwise Before)
    (hlatest : ∀ v ∈ queue, v.index < u.index) : (u.enqueue queue).Pairwise Before := by
  induction queue with
  | nil => exact List.pairwise_singleton _ _
  | cons v queue ih =>
    obtain ⟨hv, hqueue⟩ := List.pairwise_cons.mp h
    obtain ⟨hindex, hlatest⟩ := List.forall_mem_cons.mp hlatest
    rw [enqueue]
    split
    case isTrue hfinish =>
      have huv : u.Before v := .inl hfinish
      refine List.pairwise_cons.mpr ⟨?_, h⟩
      intro w hw
      rcases List.mem_cons.mp hw with rfl | hw
      · exact huv
      · exact huv.trans (hv w hw)
    case isFalse hfinish =>
      refine List.pairwise_cons.mpr ⟨?_, ih hqueue hlatest⟩
      intro w hw
      rcases List.mem_cons.mp ((u.enqueue_perm queue).mem_iff.mp hw) with rfl | hw
      · unfold Before
        omega
      · exact hv w hw

end Running

/-! ### The jobs that were started -/

/-- The job as it goes on when it is started at an instant and is given a number; nothing if it
never ends. -/
def Job.running? (job : Job α) (index instant : Nat) : Option (Running α) :=
  job.course.map fun c => ⟨index, job.item.name, instant + c.1, c.2⟩

/-- The jobs that were started and end, numbered in the order of the starts. -/
def Start.units (job : Item → Job α) (starts : List Start) : List (Running α) :=
  starts.zipIdx.filterMap fun x => (job x.1.item).running? x.2 x.1.instant

/-- One more start adds its job. -/
lemma Start.units_concat (job : Item → Job α) (starts : List Start) (s : Start) :
    Start.units job (starts ++ [s]) =
      Start.units job starts ++ ((job s.item).running? starts.length s.instant).toList := by
  rw [units, List.zipIdx_append, List.filterMap_append, Nat.zero_add]
  rfl

namespace Pool

/-! ### The jobs that are collected -/

/-- The jobs that a run collects, as it collects them: to make room for the jobs of its agenda, and
in the end. -/
def collected (workers : Nat) (p : Pool α) : List (Step α) → List (Running α)
  | [] => p.queue
  | .start job :: steps =>
    if p.inFlight < workers then collected workers (p.launch job) steps
    else
      match p.queue with
      | [] => []
      | u :: rest => u :: collected workers ((p.collect u rest).launch job) steps
  | .await delay :: steps => collected workers (p.wait delay) steps
  | .reject name fault :: steps => collected workers (p.note (.unreadable name fault)) steps
  | .close page listed selected :: steps =>
    collected workers (p.note (.pageDone page listed selected)) steps
  | .abandon page fault :: steps => collected workers (p.note (.pageLost page fault)) steps

section Steps

variable {workers : Nat} {p : Pool α} {job : Job α} {steps : List (Step α)}

/-- A run goes on with a job for which a worker is free. -/
lemma run_start_of_free (h : p.inFlight < workers) :
    run workers p (.start job :: steps) = run workers (p.launch job) steps := by
  rw [run, if_pos h]

/-- A run goes on with a job that takes the place of the first one in the queue. -/
lemma run_start_of_full {u : Running α} {rest : List (Running α)} (h : ¬ p.inFlight < workers)
    (hq : p.queue = u :: rest) :
    run workers p (.start job :: steps) = run workers ((p.collect u rest).launch job) steps := by
  rw [run, if_neg h]
  simp only [hq]

/-- A run does not get beyond a job that is waited for forever. -/
lemma run_start_of_blocked (h : ¬ p.inFlight < workers) (hq : p.queue = []) :
    run workers p (.start job :: steps) = ⟨p, false⟩ := by
  rw [run, if_neg h]
  simp only [hq]

end Steps

variable (workers : Nat) (p : Pool α)

/-- **What is noted of jobs** is noted when they are collected. -/
theorem events_collected (steps : List (Step α)) :
    (run workers p steps).pool.trace.filter Event.isOfJob =
      p.trace.filter Event.isOfJob ++ (collected workers p steps).map Running.event := by
  have hkeep (queue : List (Running α)) :
      (queue.map Running.event).filter Event.isOfJob = queue.map Running.event := by
    rw [List.filter_eq_self]
    intro e he
    obtain ⟨u, -, rfl⟩ := List.mem_map.mp he
    exact u.isOfJob_event
  have hskip {q : Pool α} {e : Event α} (he : e.isOfJob = false) :
      (q.note e).trace.filter Event.isOfJob = q.trace.filter Event.isOfJob := by
    simp [note, List.filter_append, he]
  fun_induction collected workers p steps with
  | case1 p => rw [run_nil, drain, trace_drainFrom, List.filter_append, hkeep]
  | case2 p job steps hfree ih => rw [run_start_of_free hfree, ih, trace_launch]
  | case3 p job steps hfull hq => rw [run_start_of_blocked hfull hq, List.map_nil, List.append_nil]
  | case4 p job steps hfull u rest hq ih =>
    have htrace : (p.collect u rest).trace = p.trace ++ [u.event] := rfl
    have hu : [u.event].filter Event.isOfJob = [u.event] := hkeep [u]
    rw [run_start_of_full hfull hq, ih, trace_launch, htrace, List.filter_append, hu,
      List.map_cons, List.append_assoc, List.singleton_append]
  | case5 p delay steps ih => exact ih
  | case6 p name fault steps ih => exact ih.trans (by rw [hskip rfl])
  | case7 p page listed selected steps ih => exact ih.trans (by rw [hskip rfl])
  | case8 p page fault steps ih => exact ih.trans (by rw [hskip rfl])

/-- Starting a job takes no time. -/
@[simp] lemma clock_launch (job : Job α) : (p.launch job).clock = p.clock := by
  unfold launch
  split <;> rfl

/-- The queue of a pool whose latest job is started. -/
lemma queue_launch_perm (job : Job α) :
    (p.launch job).queue.Perm
      (p.queue ++ (job.running? p.starts.length p.clock).toList) := by
  rcases h : job.course with _ | ⟨duration, outcome⟩
  · rw [launch_of_stuck p job h]
    simp [Job.running?, h]
  · rw [launch_of_ends p job h]
    simp only [Job.running?, h, Option.map_some, Option.toList_some]
    exact (Running.enqueue_perm _ p.queue).trans (List.perm_append_singleton _ _).symm

/-- **The jobs collected are those that were started and end**, if this holds of the jobs collected
so far together with the queue.

**Proof sketch.** Along the run. A start adds its job to the queue, and a job that is collected goes
from the queue to those collected so far. A run that is held up has an empty queue. -/
theorem collected_perm (job : Item → Job α) (steps : List (Step α))
    (hjobs : ∀ j ∈ steps.filterMap Step.job?, job j.item = j) (done : List (Running α))
    (hdone : (done ++ p.queue).Perm (Start.units job p.starts)) :
    (done ++ collected workers p steps).Perm
      (Start.units job (run workers p steps).pool.starts) := by
  have hlaunch {q : Pool α} {j : Job α} {done : List (Running α)} (hj : job j.item = j)
      (hq : (done ++ q.queue).Perm (Start.units job q.starts)) :
      (done ++ (q.launch j).queue).Perm (Start.units job (q.launch j).starts) := by
    rw [starts_launch, Start.units_concat, hj]
    refine ((queue_launch_perm q j).append_left done).trans ?_
    rw [← List.append_assoc]
    exact hq.append_right _
  fun_induction collected workers p steps generalizing done with
  | case1 p =>
    have hframe := (drainFrom_frame p p.queue).1
    rw [run_nil, drain, hframe]
    exact hdone
  | case2 p j steps hfree ih =>
    obtain ⟨hj, hjobs⟩ := List.forall_mem_cons.mp hjobs
    rw [run_start_of_free hfree]
    exact ih hjobs done (hlaunch hj hdone)
  | case3 p j steps hfull hq =>
    rw [run_start_of_blocked hfull hq]
    rwa [hq] at hdone
  | case4 p j steps hfull u rest hq ih =>
    obtain ⟨hj, hjobs⟩ := List.forall_mem_cons.mp hjobs
    have hmove : (done ++ [u]) ++ (p.collect u rest).queue = done ++ p.queue := by
      rw [hq, List.append_assoc]
      rfl
    have hcollect : ((done ++ [u]) ++ (p.collect u rest).queue).Perm
        (Start.units job (p.collect u rest).starts) := by
      rw [hmove]
      exact hdone
    rw [run_start_of_full hfull hq, List.append_cons]
    exact ih hjobs (done ++ [u]) (hlaunch hj hcollect)
  | case5 p delay steps ih => exact ih hjobs done hdone
  | case6 p name fault steps ih => exact ih hjobs done hdone
  | case7 p page listed selected steps ih => exact ih hjobs done hdone
  | case8 p page fault steps ih => exact ih hjobs done hdone

/-! ### They are collected in order -/

/-- The queue of a pool is in order, and its jobs are among those that were started. -/
structure Ordered (p : Pool α) : Prop where
  sorted : p.queue.Pairwise Running.Before
  index_lt : ∀ u ∈ p.queue, u.index < p.starts.length

variable {workers p}

/-- The queue stays in order when a job is started. -/
lemma Ordered.launch (h : p.Ordered) (job : Job α) : (p.launch job).Ordered := by
  have hmem {u : Running α} (hu : u ∈ (p.launch job).queue) :
      u.index < (p.launch job).starts.length := by
    rw [starts_launch, List.length_append, List.length_singleton]
    rcases List.mem_append.mp ((queue_launch_perm p job).mem_iff.mp hu) with hu | hu
    · exact Nat.lt_succ_of_lt (h.index_lt u hu)
    · obtain ⟨c, -, rfl⟩ := Option.map_eq_some_iff.mp (Option.mem_toList.mp hu)
      exact Nat.lt_succ_self _
  refine ⟨?_, fun u => hmem⟩
  rcases hc : job.course with _ | ⟨duration, outcome⟩
  · rw [launch_of_stuck p job hc]
    exact h.sorted
  · rw [launch_of_ends p job hc]
    exact Running.pairwise_enqueue h.sorted h.index_lt

/-- The queue stays in order when its first job is collected. -/
lemma Ordered.collect (h : p.Ordered) {u : Running α} {rest : List (Running α)}
    (hq : p.queue = u :: rest) : (p.collect u rest).Ordered := by
  have hsorted := h.sorted
  rw [hq] at hsorted
  refine ⟨(List.pairwise_cons.mp hsorted).2, fun v hv => h.index_lt v ?_⟩
  rw [hq]
  exact List.mem_cons_of_mem u hv

/-- A job that is not in the queue when a job is started is the one that is started. -/
lemma mem_queue_launch {job : Job α} {v : Running α} (hv : v ∈ (p.launch job).queue) :
    v ∈ p.queue ∨ p.clock ≤ v.finish ∧ p.starts.length = v.index := by
  rcases List.mem_append.mp ((queue_launch_perm p job).mem_iff.mp hv) with hv | hv
  · exact .inl hv
  · obtain ⟨c, -, rfl⟩ := Option.map_eq_some_iff.mp (Option.mem_toList.mp hv)
    exact .inr ⟨Nat.le_add_right _ _, rfl⟩

/-- A job that is collected later on is in the queue now, or it is started later on and does not end
before. -/
lemma mem_collected {steps : List (Step α)} {v : Running α} (hv : v ∈ collected workers p steps) :
    v ∈ p.queue ∨ p.clock ≤ v.finish ∧ p.starts.length ≤ v.index := by
  have hlaunch {q : Pool α} {job : Job α}
      (h : v ∈ (q.launch job).queue ∨
        (q.launch job).clock ≤ v.finish ∧ (q.launch job).starts.length ≤ v.index) :
      v ∈ q.queue ∨ q.clock ≤ v.finish ∧ q.starts.length ≤ v.index := by
    rcases h with h | ⟨hclock, hindex⟩
    · exact (mem_queue_launch h).imp_right fun h => ⟨h.1, h.2.le⟩
    · rw [starts_launch, List.length_append] at hindex
      rw [clock_launch] at hclock
      exact .inr ⟨hclock, by omega⟩
  fun_induction collected workers p steps with
  | case1 p => exact .inl hv
  | case2 p job steps hfree ih => exact hlaunch (ih hv)
  | case3 p job steps hfull hq => exact absurd hv List.not_mem_nil
  | case4 p job steps hfull u rest hq ih =>
    rw [hq]
    rcases List.mem_cons.mp hv with rfl | hv
    · exact .inl List.mem_cons_self
    · rcases hlaunch (ih hv) with h | ⟨hclock, hindex⟩
      · exact .inl (List.mem_cons_of_mem u h)
      · exact .inr ⟨(Nat.le_max_left _ _).trans hclock, hindex⟩
  | case5 p delay steps ih =>
    rcases ih hv with h | ⟨hclock, hindex⟩
    · exact .inl h
    · exact .inr ⟨(Nat.le_add_right _ _).trans hclock, hindex⟩
  | case6 p name fault steps ih => exact ih hv
  | case7 p page listed selected steps ih => exact ih hv
  | case8 p page fault steps ih => exact ih hv

/-- **Jobs are collected in order.**

**Proof sketch.** Along the run. A job that is collected comes before those that stay in the queue,
and time has got to its end, so whatever is started later on ends no earlier. -/
theorem pairwise_collected (h : p.Ordered) (steps : List (Step α)) :
    (collected workers p steps).Pairwise Running.Before := by
  fun_induction collected workers p steps with
  | case1 p => exact h.sorted
  | case2 p job steps hfree ih => exact ih (h.launch job)
  | case3 p job steps hfull hq => exact List.Pairwise.nil
  | case4 p job steps hfull u rest hq ih =>
    have hcollect := h.collect hq
    have hu : u.index < p.starts.length := h.index_lt u (by rw [hq]; exact List.mem_cons_self)
    have hsorted := h.sorted
    rw [hq] at hsorted
    refine List.pairwise_cons.mpr ⟨?_, ih (hcollect.launch job)⟩
    intro v hv
    -- a job that is not yet started has a larger number and ends no earlier
    have hlater (hclock : max p.clock u.finish ≤ v.finish) (hindex : p.starts.length ≤ v.index) :
        u.Before v := by
      unfold Running.Before
      omega
    rcases mem_collected hv with hv | ⟨hclock, hindex⟩
    · rcases mem_queue_launch hv with hv | ⟨hclock, hindex⟩
      · exact (List.pairwise_cons.mp hsorted).1 v hv
      · exact hlater hclock hindex.le
    · rw [clock_launch] at hclock
      rw [starts_launch, List.length_append] at hindex
      exact hlater hclock ((Nat.le_add_right _ _).trans hindex)
  | case5 p delay steps ih => exact ih ⟨h.sorted, h.index_lt⟩
  | case6 p name fault steps ih => exact ih ⟨h.sorted, h.index_lt⟩
  | case7 p page listed selected steps ih => exact ih ⟨h.sorted, h.index_lt⟩
  | case8 p page fault steps ih => exact ih ⟨h.sorted, h.index_lt⟩

/-- **A single worker collects jobs as they were started.**

**Proof sketch.** Along the run. At most one job is in flight, so a job is started when the queue is
empty, or right after its only job was collected. -/
theorem pairwise_collected_one (h : p.Ordered) (hp : p.inFlight ≤ 1) (steps : List (Step α)) :
    (collected 1 p steps).Pairwise fun u v => u.index < v.index := by
  have hone {q : Pool α} (hq : q.inFlight ≤ 1) : q.queue.length ≤ 1 := by
    unfold inFlight at hq
    omega
  fun_induction collected 1 p steps with
  | case1 p =>
    have hlen := hone hp
    rcases hq : p.queue with _ | ⟨u, _ | ⟨v, rest⟩⟩
    · exact List.Pairwise.nil
    · exact List.pairwise_singleton _ _
    · rw [hq] at hlen
      simp at hlen
  | case2 p job steps hfree ih =>
    exact ih (h.launch job) (by rw [inFlight_launch]; exact hfree)
  | case3 p job steps hfull hq => exact List.Pairwise.nil
  | case4 p job steps hfull u rest hq ih =>
    have hcollect := inFlight_collect hq
    have hu : u.index < p.starts.length := h.index_lt u (by rw [hq]; exact List.mem_cons_self)
    have hrest : rest = [] := by
      have hlen := hone hp
      rw [hq, List.length_cons] at hlen
      exact List.length_eq_zero_iff.mp (by omega)
    refine List.pairwise_cons.mpr
      ⟨?_, ih ((h.collect hq).launch job) (by rw [inFlight_launch]; omega)⟩
    intro v hv
    rcases mem_collected hv with hv | ⟨-, hindex⟩
    · rcases mem_queue_launch hv with hv | ⟨-, hindex⟩
      · rw [collect, hrest] at hv
        exact absurd hv List.not_mem_nil
      · exact hu.trans_le hindex.le
    · rw [starts_launch, List.length_append] at hindex
      exact hu.trans_le ((Nat.le_add_right _ _).trans hindex)
  | case5 p delay steps ih => exact ih ⟨h.sorted, h.index_lt⟩ hp
  | case6 p name fault steps ih => exact ih ⟨h.sorted, h.index_lt⟩ hp
  | case7 p page listed selected steps ih => exact ih ⟨h.sorted, h.index_lt⟩ hp
  | case8 p page fault steps ih => exact ih ⟨h.sorted, h.index_lt⟩ hp

end Pool

end KeyIntake
