import KeyIntake.Proofs.Load.Pool
/-!
# No event is lost, doubled or invented

A run interleaves starts, collections and waits, but the events are conserved: at any time those
that were noted, those that the queue will yield and those of the steps to come are together the
events of the agenda. So a run that reaches its end has noted the events of its agenda, each as
often as the agenda has it, in some order. Only the events of jobs change places: the others are
noted in the order of the agenda.

## Main definitions

* `Pool.account` — what was noted and what the queue will yield.

## Main results

* `Pool.trace_run_perm` — the trace of a run that returns is its agenda's, up to order.
* `Pool.filter_trace_run` — the events that no job can cause are noted in order.
-/

set_option relaxedAutoImplicit false
set_option autoImplicit false

namespace KeyIntake

namespace Pool

variable {α : Type} (p : Pool α)

/-! ### The account of a pool -/

/-- What was noted so far, and what the jobs in the queue will yield. -/
def account : List (Event α) := p.trace ++ p.queue.map Running.event

/-- A noted event enters the account. -/
lemma account_note (e : Event α) : (p.note e).account.Perm (p.account ++ [e]) := by
  simp only [account, note, List.append_assoc]
  exact List.perm_append_comm.append_left _

/-- Waiting leaves the account alone. -/
@[simp] lemma account_wait (delay : Nat) : (p.wait delay).account = p.account := rfl

/-- The events of a job enter the account when it is started. -/
lemma account_launch (job : Job α) :
    (p.launch job).account.Perm (p.account ++ job.events) := by
  simp only [account, trace_launch, List.append_assoc]
  exact (events_launch p job).append_left _

/-- Collecting a job moves its event from the queue to the trace. -/
lemma account_collect {p : Pool α} {u : Running α} {rest : List (Running α)}
    (h : p.queue = u :: rest) : (p.collect u rest).account = p.account := by
  simp only [account, collect, h, List.map_cons, List.append_assoc, List.singleton_append]

/-- Once all jobs are collected, the whole account has been noted. -/
lemma trace_drain : p.drain.pool.trace = p.account := trace_drainFrom p p.queue

variable {p} in
/-- **A step adds its events to the account**, also when a job is collected to make room. -/
lemma account_advance {workers : Nat} {step : Step α} {p' : Pool α}
    (h : Advance workers p step p') : p'.account.Perm (p.account ++ step.events) := by
  cases h with
  | wait delay => rw [account_wait, Step.events, List.append_nil]
  | note hjob he =>
    rw [he]
    exact account_note p _
  | launch job hfree => exact account_launch p job
  | relay job hfull hq =>
    rw [← account_collect hq]
    exact account_launch _ job

/-- **Conservation of events.** A run that returns has noted what its pool had accounted for and the
events of its agenda, in some order.

**Proof sketch.** Induction on the agenda: each step adds its events to the account, and in the end
the whole account is noted. -/
theorem trace_run_perm (workers : Nat) (steps : List (Step α))
    (h : (run workers p steps).returned = true) :
    (run workers p steps).pool.trace.Perm (p.account ++ steps.flatMap Step.events) := by
  induction steps generalizing p with
  | nil => rw [List.flatMap_nil, List.append_nil, run_nil, trace_drain]
  | cons step steps ih =>
    rcases run_cons workers p step with ⟨p', hadv, hrun⟩ | ⟨-, hrun⟩
    · rw [hrun] at h ⊢
      rw [List.flatMap_cons, ← List.append_assoc]
      exact (ih p' h).trans ((account_advance hadv).append_right _)
    · rw [hrun] at h
      exact absurd h Bool.false_ne_true

/-! ### Events that are not ends of jobs -/

section Order

variable {f : Event α → Bool} (hf : ∀ e : Event α, e.isOfJob = true → f e = false)

include hf

/-- Jobs contribute nothing to a kind of events that are not ends of jobs. -/
lemma filter_job_events (job : Job α) : job.events.filter f = [] := by
  rw [List.filter_eq_nil_iff]
  intro e he
  rw [hf e (job.isOfJob_of_mem_events he)]
  exact Bool.false_ne_true

/-- Neither does a queue. -/
lemma filter_queue_events (queue : List (Running α)) :
    (queue.map Running.event).filter f = [] := by
  rw [List.filter_eq_nil_iff]
  intro e he
  obtain ⟨u, -, rfl⟩ := List.mem_map.mp he
  rw [hf _ u.isOfJob_event]
  exact Bool.false_ne_true

variable {p} in
/-- A step notes such events at once, in order. -/
lemma filter_trace_advance {workers : Nat} {step : Step α} {p' : Pool α}
    (h : Advance workers p step p') :
    p'.trace.filter f = p.trace.filter f ++ step.events.filter f := by
  cases h with
  | wait delay => exact (List.append_nil _).symm
  | note hjob he => rw [note, he, List.filter_append]
  | launch job hfree =>
    rw [trace_launch, Step.events, filter_job_events hf, List.append_nil]
  | @relay job hfull u rest hq =>
    have hu : [u.event].filter f = [] := filter_queue_events hf [u]
    rw [trace_launch, Step.events, filter_job_events hf, List.append_nil, collect,
      List.filter_append, hu, List.append_nil]

/-- **Events that are not ends of jobs keep their order**: a run that returns has noted them as its
agenda has them. -/
theorem filter_trace_run (workers : Nat) (steps : List (Step α))
    (h : (run workers p steps).returned = true) :
    (run workers p steps).pool.trace.filter f =
      p.trace.filter f ++ (steps.flatMap Step.events).filter f := by
  induction steps generalizing p with
  | nil =>
    rw [run_nil, trace_drain, account, List.filter_append, filter_queue_events hf]
    rfl
  | cons step steps ih =>
    rcases run_cons workers p step with ⟨p', hadv, hrun⟩ | ⟨-, hrun⟩
    · rw [hrun] at h ⊢
      rw [ih p' h, filter_trace_advance hf hadv, List.flatMap_cons, List.filter_append,
        List.append_assoc]
    · rw [hrun] at h
      exact absurd h Bool.false_ne_true

end Order

end Pool

end KeyIntake
