import KeyIntake.Proofs.Load.Pool
/-!
# How far a run gets

Every job that ends gives its worker back, so a run goes on until all workers are taken by jobs that
never end. Where that happens depends on the order of the jobs alone and not on any delay: the jobs
started are those of the agenda up to the stuck one that takes the last worker, and the run returns
iff no job of the agenda is stuck.

## Main definitions

* `cutAfter` — a list cut just after its `n`-th element with a property.

## Main results

* `cutAfter_of_countP_lt`, `countP_cutAfter`, `getLast?_cutAfter` — what a cut list is.
* `Pool.starts_run` — the jobs that a run starts.
* `Pool.returned_run_iff` — when a run returns.
-/

set_option relaxedAutoImplicit false
set_option autoImplicit false

namespace KeyIntake

/-! ### Cutting a list -/

section Cut

variable {β γ : Type} (stop : β → Bool)

/-- A list cut just after its `n`-th element with a property; the whole list if it has fewer. -/
def cutAfter : Nat → List β → List β
  | _, [] => []
  | 0, _ :: _ => []
  | n + 1, x :: rest => x :: cutAfter (if stop x then n else n + 1) rest

/-- Nothing is left if no element may be kept. -/
@[simp] lemma cutAfter_zero (xs : List β) : cutAfter stop 0 xs = [] := by
  cases xs <;> rfl

/-- A list with fewer elements of that kind is not cut. -/
theorem cutAfter_of_countP_lt {n : Nat} {xs : List β} (h : xs.countP stop < n) :
    cutAfter stop n xs = xs := by
  induction xs generalizing n with
  | nil => simp only [cutAfter]
  | cons x rest ih =>
    obtain ⟨m, rfl⟩ : ∃ m, n = m + 1 := ⟨n - 1, by omega⟩
    rw [List.countP_cons] at h
    rw [cutAfter]
    congr 1
    by_cases hx : stop x = true
    · simp only [hx, ↓reduceIte] at h ⊢
      exact ih (by omega)
    · simp only [hx] at h ⊢
      exact ih h

/-- What is left of a list are its first elements. -/
theorem cutAfter_prefix_self (n : Nat) (xs : List β) : cutAfter stop n xs <+: xs := by
  induction xs generalizing n with
  | nil => simp only [cutAfter, List.prefix_rfl]
  | cons x rest ih =>
    cases n with
    | zero => exact List.nil_prefix
    | succ n =>
      rw [cutAfter]
      exact List.cons_prefix_cons.mpr ⟨rfl, ih _⟩

/-- A list with enough elements of that kind keeps `n` of them, and the last of these ends it. -/
theorem cutAfter_of_le_countP {n : Nat} {xs : List β} (hn : 0 < n) (h : n ≤ xs.countP stop) :
    (cutAfter stop n xs).countP stop = n ∧
      ∃ x, (cutAfter stop n xs).getLast? = some x ∧ stop x = true := by
  induction xs generalizing n with
  | nil => exact absurd h (by simp only [List.countP_nil]; omega)
  | cons x rest ih =>
    obtain ⟨m, rfl⟩ : ∃ m, n = m + 1 := ⟨n - 1, by omega⟩
    rw [List.countP_cons] at h
    by_cases hx : stop x = true
    · simp only [hx, ↓reduceIte] at h
      simp only [cutAfter, hx, ↓reduceIte, List.countP_cons_of_pos, List.getLast?_cons]
      rcases Nat.eq_zero_or_pos m with rfl | hm
      · exact ⟨by simp, x, by simp, hx⟩
      · obtain ⟨hcount, y, hlast, hy⟩ := ih hm (by omega)
        exact ⟨by rw [hcount], y, by rw [hlast]; rfl, hy⟩
    · simp only [hx] at h
      obtain ⟨hcount, y, hlast, hy⟩ := ih hn h
      rw [cutAfter, if_neg hx, List.getLast?_cons, List.countP_cons_of_neg hx]
      exact ⟨hcount, y, by rw [hlast]; rfl, hy⟩

/-- Cutting commutes with mapping. -/
lemma cutAfter_map (f : γ → β) (n : Nat) (xs : List γ) :
    cutAfter stop n (xs.map f) = (cutAfter (fun x => stop (f x)) n xs).map f := by
  induction xs generalizing n with
  | nil => simp only [cutAfter, List.map_nil]
  | cons x rest ih =>
    cases n with
    | zero => rfl
    | succ n => rw [List.map_cons, cutAfter, cutAfter, List.map_cons, ih]

end Cut

namespace Pool

variable {α : Type} {workers : Nat} {p p' : Pool α} {step : Step α}

/-! ### Steps -/

/-- **The concurrency bound of a step**: no step brings more jobs into flight than there are
workers. -/
lemma inFlight_advance (h : Advance workers p step p') (hp : p.inFlight ≤ workers) :
    p'.inFlight ≤ workers := by
  cases h with
  | wait delay => exact hp
  | note hjob he => exact hp
  | launch job hfree =>
    rw [inFlight_launch]
    exact hfree
  | relay job hfull hq =>
    rw [inFlight_launch, inFlight_collect hq]
    exact hp

/-- A step starts its own job and no other. -/
lemma starts_advance (h : Advance workers p step p') :
    p'.starts.map Start.item = p.starts.map Start.item ++ step.job?.toList.map Job.item := by
  cases h with
  | wait delay => exact (List.append_nil _).symm
  | note hjob he =>
    rw [hjob]
    exact (List.append_nil _).symm
  | launch job hfree =>
    rw [starts_launch, List.map_append]
    rfl
  | relay job hfull hq =>
    rw [starts_launch, List.map_append]
    rfl

/-- A step adds a stuck job to the pool if it starts one. -/
lemma stuck_advance (h : Advance workers p step p') :
    p'.stuck = p.stuck + step.job?.toList.countP Job.isStuck := by
  cases h with
  | wait delay => rfl
  | note hjob he =>
    rw [hjob]
    rfl
  | launch job hfree => simp [stuck_launch, Step.job?, List.countP_cons]
  | relay job hfull hq =>
    simp [stuck_launch, collect, Step.job?, List.countP_cons]

/-- A pool that starts a job is not full of stuck jobs. -/
lemma stuck_lt_of_advance {job : Job α} (h : Advance workers p (.start job) p')
    (hp : p.inFlight ≤ workers) : p.stuck < workers := by
  unfold inFlight at hp
  cases h with
  | note hjob he => exact absurd hjob (Option.some_ne_none job)
  | launch _ hfree =>
    unfold inFlight at hfree
    omega
  | relay _ hfull hq =>
    rw [hq, List.length_cons] at hp
    omega

/-- A pool in which a step is waited for forever is full of stuck jobs. -/
lemma Blocked.stuck_eq (h : Blocked workers p step) (hp : p.inFlight ≤ workers) :
    p.stuck = workers := by
  have hfull := h.full
  rw [inFlight, h.queue_eq_nil, List.length_nil] at hp hfull
  omega

/-! ### Runs -/

variable (workers p)

/-- **The jobs that a run starts** are those of its agenda, cut just after the stuck one that takes
the last worker.

**Proof sketch.** Induction on the agenda, for a pool with at most `workers` jobs in flight: its
stuck jobs are what the cut has used up. A step is waited for forever only if they have used it up
entirely. -/
theorem starts_run (steps : List (Step α)) (hp : p.inFlight ≤ workers) :
    (run workers p steps).pool.starts.map Start.item =
      p.starts.map Start.item ++
        (cutAfter Job.isStuck (workers - p.stuck) (steps.filterMap Step.job?)).map Job.item := by
  induction steps generalizing p with
  | nil =>
    have hframe := (drainFrom_frame p p.queue).1
    simp only [run_nil, drain, hframe, List.filterMap_nil, cutAfter, List.map_nil,
      List.append_nil]
  | cons step steps ih =>
    rcases run_cons workers p step with ⟨p', hadv, hrun⟩ | ⟨hblock, hrun⟩
    · rw [hrun, ih p' (inFlight_advance hadv hp), starts_advance hadv, stuck_advance hadv,
        List.append_assoc]
      cases hjob : step.job? with
      | none => simp [List.filterMap_cons_none hjob]
      | some job =>
        obtain rfl := Step.eq_start_of_job?_eq_some hjob
        obtain ⟨m, hm⟩ : ∃ m, workers - p.stuck = m + 1 :=
          ⟨workers - p.stuck - 1, by have := stuck_lt_of_advance hadv hp; omega⟩
        have hleft : workers - (p.stuck + [job].countP Job.isStuck) =
            if job.isStuck then m else m + 1 := by
          rw [List.countP_singleton]
          split <;> omega
        rw [Option.toList_some, hleft, List.filterMap_cons_some hjob, hm, cutAfter]
        rfl
    · obtain ⟨job, rfl⟩ := hblock.isJob
      rw [hrun, hblock.stuck_eq hp, Nat.sub_self, cutAfter_zero, List.map_nil, List.append_nil]

/-- **When a run returns**: iff no job in the pool is stuck and none of the agenda is. -/
theorem returned_run_iff (steps : List (Step α)) (hw : 0 < workers) (hp : p.inFlight ≤ workers) :
    (run workers p steps).returned = true ↔
      p.stuck = 0 ∧ ∀ job ∈ steps.filterMap Step.job?, job.isStuck = false := by
  induction steps generalizing p with
  | nil => simp [run_nil, drain]
  | cons step steps ih =>
    rcases run_cons workers p step with ⟨p', hadv, hrun⟩ | ⟨hblock, hrun⟩
    · rw [hrun, ih p' (inFlight_advance hadv hp), stuck_advance hadv]
      cases hjob : step.job? with
      | none => simp [List.filterMap_cons_none hjob]
      | some job =>
        rw [List.filterMap_cons_some hjob, List.forall_mem_cons, Option.toList_some,
          List.countP_singleton]
        cases job.isStuck <;> simp
    · have hstuck := hblock.stuck_eq hp
      rw [hrun]
      constructor
      · intro h
        exact absurd h Bool.false_ne_true
      · rintro ⟨h, -⟩
        omega

end Pool

end KeyIntake
