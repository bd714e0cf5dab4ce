import KeyIntake.Proofs.Load.Instants
/-!
# Less to wait for is never later

Two loads go through the same entries. The one has at least as many workers as the other, awaits no
page longer and has no longer fetches among the selected items. The two start and collect their jobs
at different instants and in different orders, and still the first one starts no job later and
returns no later: a load has no scheduling anomalies.

What is compared is not the queues themselves, whose jobs differ, but how many jobs go on beyond an
instant. A job is started as soon as fewer jobs go on than there are workers, so a pool with no more
jobs going on at any instant to come starts the next one no later.

## Main definitions

* `Pool.Ahead` — a pool that is no later than another one and has no more jobs going on.
* `Step.Eases`, `Load.Eases` — steps and loads with no more to wait for.

## Main results

* `Pool.Ahead.advance` — a step that has no more to wait for keeps a pool ahead.
* `Pool.Ahead.run` — so does a whole run.
* `Load.elapsed_le_of_eases` — a load that has no more to wait for starts no job later and returns
  no later.
-/

set_option relaxedAutoImplicit false
set_option autoImplicit false

namespace KeyIntake

variable {α β : Type}

/-! ### Having no more to wait for -/

/-- The same item is started, and no later. -/
def Start.NoLater (s' s : Start) : Prop := s'.item = s.item ∧ s'.instant ≤ s.instant

/-- A job for the same item that takes no longer. -/
def Job.Eases (job' : Job β) (job : Job α) : Prop :=
  job'.item = job.item ∧ ∀ c ∈ job.course, ∃ c' ∈ job'.course, c'.1 ≤ c.1

/-- **A step with no more to wait for**: a page is awaited no longer, or a job takes no longer.
Other steps take no time. -/
abbrev Step.Eases : Step β → Step α → Prop := Step.Related (· ≤ ·) Job.Eases

namespace Pool

/-! ### A pool that is ahead -/

/-- **A pool is ahead of another one** if its clock is not later, at no instant to come do more of
its jobs go on, and it has started the same items no later. -/
structure Ahead (p' : Pool β) (p : Pool α) : Prop where
  clock_le : p'.clock ≤ p.clock
  pending_le : ∀ t, p.clock ≤ t → p'.pending t ≤ p.pending t
  starts : List.Forall₂ Start.NoLater p'.starts p.starts

namespace Ahead

variable {p' : Pool β} {p : Pool α}

/-- A pool is still ahead after waiting no longer. -/
lemma wait (h : p'.Ahead p) {delay' delay : Nat} (hdelay : delay' ≤ delay) :
    (p'.wait delay').Ahead (p.wait delay) where
  clock_le := Nat.add_le_add h.clock_le hdelay
  pending_le t ht := h.pending_le t ((Nat.le_add_right p.clock delay).trans ht)
  starts := h.starts

/-- A pool is still ahead after starting a job that takes no longer: whenever the job goes on, so
does the one that is started in the other pool. -/
lemma launch (h : p'.Ahead p) {job' : Job β} {job : Job α} (hjob : job'.Eases job)
    {c : Nat × Except Fault (List α)} (hc : job.course = some c) :
    (p'.launch job').Ahead (p.launch job) := by
  obtain ⟨hitem, hcourse⟩ := hjob
  obtain ⟨c', hc', hle⟩ := hcourse c (Option.mem_def.mpr hc)
  have hclock := h.clock_le
  refine ⟨?_, fun t ht => ?_, ?_⟩
  · rw [clock_launch, clock_launch]
    exact hclock
  · rw [clock_launch] at ht
    have hpending := h.pending_le t ht
    rw [pending_launch p' job' (Option.mem_def.mp hc'), pending_launch p job hc]
    by_cases hlate : t < p'.clock + c'.1
    · have hlate' : t < p.clock + c.1 := by omega
      rw [if_pos hlate, if_pos hlate']
      omega
    · rw [if_neg hlate]
      omega
  · rw [starts_launch, starts_launch]
    exact List.rel_append h.starts (.cons ⟨hitem, hclock⟩ .nil)

/-- A pool is still ahead when the other one collects a job. -/
lemma collect_right (h : p'.Ahead p) {u : Running α} {rest : List (Running α)}
    (hq : p.queue = u :: rest) : p'.Ahead (p.collect u rest) where
  clock_le := h.clock_le.trans (Nat.le_max_left _ _)
  pending_le t ht := by
    have ht : max p.clock u.finish ≤ t := ht
    rw [pending_collect hq ((Nat.le_max_right _ _).trans ht)]
    exact h.pending_le t ((Nat.le_max_left _ _).trans ht)
  starts := h.starts

/-- A pool is still ahead after collecting a job that has ended by now in the other one. -/
lemma collect_left (h : p'.Ahead p) {u : Running β} {rest : List (Running β)}
    (hq : p'.queue = u :: rest) (hended : u.finish ≤ p.clock) : (p'.collect u rest).Ahead p where
  clock_le := Nat.max_le.mpr ⟨h.clock_le, hended⟩
  pending_le t ht := by
    rw [pending_collect hq (hended.trans ht)]
    exact h.pending_le t ht
  starts := h.starts

/-- **A pool that is ahead makes room no later.** When the other one has made room, fewer jobs go on
there than it has workers, and no more do here; so if all workers are taken here, the first job of
the queue has ended. -/
lemma makesRoom (h : p'.Ahead p) {workers' workers : Nat} (hw : workers ≤ workers')
    (hp : p.inFlight ≤ workers) (hord : p'.Ordered) (hstuck : p'.stuck = 0) {p₀' : Pool β}
    {p₀ : Pool α} (hroom' : MakesRoom workers' p' p₀') (hroom : MakesRoom workers p p₀) :
    p₀'.Ahead p₀ := by
  have hfree : p₀.inFlight < workers := hroom.inFlight_lt hp
  have hright : p'.Ahead p₀ := by
    cases hroom with
    | stay _ => exact h
    | collect _ hq => exact h.collect_right hq
  cases hroom' with
  | stay _ => exact hright
  | collect hfull hq =>
    have hle := hright.pending_le p₀.clock le_rfl
    have hle' := p₀.pending_le_inFlight p₀.clock
    have hlength : workers' ≤ p'.queue.length := by
      rw [inFlight, hstuck] at hfull
      omega
    exact hright.collect_left hq (finish_le_of_pending_lt hord hq (by omega))

/-- **A step with no more to wait for keeps a pool ahead.** -/
theorem advance (h : p'.Ahead p) {workers' workers : Nat} (hw : workers ≤ workers')
    (hp : p.inFlight ≤ workers) (hord : p'.Ordered) (hstuck : p'.stuck = 0) {step' : Step β}
    {step : Step α} (hstep : step'.Eases step)
    (hends : ∀ job ∈ step.job?, job.isStuck = false) {r' : Pool β} {r : Pool α}
    (hadv' : Advance workers' p' step' r') (hadv : Advance workers p step r) : r'.Ahead r := by
  -- a note changes neither the clock nor the queue
  have hnote (e' : Event β) (e : Event α) : (p'.note e').Ahead (p.note e) :=
    ⟨h.clock_le, h.pending_le, h.starts⟩
  cases hstep with
  | await hdelay =>
    cases hadv' with
    | wait _ =>
      cases hadv with
      | wait _ => exact h.wait hdelay
      | note _ he => exact absurd he.symm (List.cons_ne_nil _ _)
    | note _ he => exact absurd he.symm (List.cons_ne_nil _ _)
  | @start job' job hjob =>
    obtain ⟨p₀', hroom', rfl⟩ := hadv'.exists_room
    obtain ⟨p₀, hroom, rfl⟩ := hadv.exists_room
    obtain ⟨c, hc⟩ := Job.exists_course (hends job (Option.mem_some_self job))
    exact (h.makesRoom hw hp hord hstuck hroom' hroom).launch hjob hc
  | reject _ _ =>
    cases hadv' with
    | note _ _ => cases hadv with
      | note _ _ => exact hnote _ _
  | close _ _ _ =>
    cases hadv' with
    | note _ _ => cases hadv with
      | note _ _ => exact hnote _ _
  | abandon _ _ =>
    cases hadv' with
    | note _ _ => cases hadv with
      | note _ _ => exact hnote _ _

/-- A pool that is ahead has all its jobs ended no later. -/
lemma horizon_le (h : p'.Ahead p) : p'.horizon ≤ p.horizon := by
  have hclock := p.clock_le_horizon
  have hnone : p.pending p.horizon = 0 := pending_eq_zero_iff.mpr fun u => finish_le_horizon
  have hle := h.pending_le p.horizon hclock
  exact p'.horizon_le_iff.mpr ⟨h.clock_le.trans hclock, pending_eq_zero_iff.mp (by omega)⟩

/-- **A run with no more to wait for keeps a pool ahead.** If both runs return, the one has started
the same items no later and returns no later.

**Proof sketch.** Induction on the two agendas, step by step. Neither run is held up, because both
return. In the end all jobs are collected, and their horizon decides. -/
theorem run (h : p'.Ahead p) {workers' workers : Nat} (hw : workers ≤ workers')
    (hp' : p'.inFlight ≤ workers') (hp : p.inFlight ≤ workers) (hord : p'.Ordered)
    {steps' : List (Step β)} {steps : List (Step α)} (hsteps : List.Forall₂ Step.Eases steps' steps)
    (hpos : 0 < workers) (hret' : (run workers' p' steps').returned = true)
    (hret : (run workers p steps).returned = true) :
    (Pool.run workers' p' steps').pool.clock ≤ (Pool.run workers p steps).pool.clock ∧
      List.Forall₂ Start.NoLater (Pool.run workers' p' steps').pool.starts
        (Pool.run workers p steps).pool.starts := by
  induction hsteps generalizing p' p with
  | nil =>
    have hframe' := (drainFrom_frame p' p'.queue).1
    have hframe := (drainFrom_frame p p.queue).1
    rw [run_nil, run_nil, drain, drain, hframe', hframe]
    exact ⟨h.horizon_le, h.starts⟩
  | @cons step' step steps' steps hstep _ ih =>
    obtain ⟨hstuck', -⟩ := (returned_run_iff _ _ _ (hpos.trans_le hw) hp').mp hret'
    obtain ⟨-, hends⟩ := (returned_run_iff _ _ _ hpos hp).mp hret
    rcases run_cons workers' p' step' with ⟨r', hadv', hrun'⟩ | ⟨-, hrun'⟩
    · rcases run_cons workers p step with ⟨r, hadv, hrun⟩ | ⟨-, hrun⟩
      · rw [hrun'] at hret' ⊢
        rw [hrun] at hret ⊢
        have hahead := h.advance hw hp hord hstuck' hstep (Step.forall_jobs_cons hends).1 hadv' hadv
        exact ih hahead (inFlight_advance hadv' hp') (inFlight_advance hadv hp)
          (hord.advance hadv') hret' hret
      · rw [hrun] at hret
        exact absurd hret Bool.false_ne_true
    · rw [hrun'] at hret'
      exact absurd hret' Bool.false_ne_true

end Ahead

end Pool

/-! ### Loads -/

namespace Load

variable {ι κ : Type}

/-- **A load with no more to wait for** than another one: it selects from the same entries, has at
least as many workers, awaits no page longer, and the fetch of no selected item takes longer, be it
that it ends earlier or is cut off earlier. -/
structure Eases (m : Load κ β) (l : Load ι α) : Prop where
  query : m.query = l.query
  workers : max 1 l.limits.concurrency ≤ max 1 m.limits.concurrency
  pages : List.Forall₂ (fun page' page => page'.content = page.content ∧ page'.delay ≤ page.delay)
    m.pages l.pages
  spans : ∀ item ∈ l.selected, ∀ d ∈ l.span? item, ∃ d' ∈ m.span? item, d' ≤ d

namespace Eases

variable {m : Load κ β} {l : Load ι α}

/-- The job of a selected item takes no longer. -/
lemma job (h : m.Eases l) {item : Item} (hitem : item ∈ l.selected) :
    (m.job item).Eases (l.job item) := by
  refine ⟨rfl, fun c hc => ?_⟩
  have hspan : c.1 ∈ l.span? item := by
    rw [span?_eq_course]
    exact Option.mem_map_of_mem Prod.fst hc
  obtain ⟨d', hd', hle⟩ := h.spans item hitem c.1 hspan
  rw [span?_eq_course] at hd'
  obtain ⟨c', hc', rfl⟩ := Option.mem_map.mp hd'
  exact ⟨c', hc', hle⟩

/-- The agenda has no more to wait for. -/
lemma agenda (h : m.Eases l) :
    List.Forall₂ Step.Eases (Agenda.ofPages m.query m.job 0 m.pages)
      (Agenda.ofPages l.query l.job 0 l.pages) := by
  rw [h.query]
  exact Agenda.related_ofPages l.query h.pages (fun item hitem => h.job hitem) 0

/-- Pages that take no longer bring the same items. -/
lemma selected (h : m.Eases l) : m.selected = l.selected := by
  rw [Load.selected, Load.selected, entries, entries, Page.intact_of_related h.pages, h.query]

variable [BEq α] [BEq β]

/-- A load with no more to wait for returns if the other one does. -/
lemma returned (h : m.Eases l) (hret : l.report.returned = true) : m.report.returned = true := by
  rw [returned_report, returned_outcome_iff] at hret ⊢
  rw [h.selected]
  intro item hitem
  rcases l.course_job item with ⟨hstuck, -⟩ | ⟨d, -, hspan, -⟩
  · rw [hret item hitem] at hstuck
    exact absurd hstuck Bool.false_ne_true
  · obtain ⟨d', hd', -⟩ := h.spans item hitem d (Option.mem_def.mpr hspan)
    rcases m.course_job item with ⟨-, hspan', -⟩ | ⟨-, hstuck', -⟩
    · rw [hspan'] at hd'
      exact absurd hd' (Option.not_mem_none d')
    · exact hstuck'

end Eases

variable [BEq α] [BEq β] {m : Load κ β} {l : Load ι α}

/-- **No scheduling anomaly.** Give a load that returns more workers, shorter delays of pages and
shorter effective lengths of the fetches of its selected items, any of these or all: it returns, it
starts each of its jobs no later, and it returns no later.

**Proof sketch.** The agendas agree but for what there is to wait for, and the pools that have done
nothing yet are ahead of each other. -/
theorem elapsed_le_of_eases (h : m.Eases l) (hret : l.report.returned = true) :
    m.report.returned = true ∧
      List.Forall₂ (fun s' s => s'.item = s.item ∧ s'.instant ≤ s.instant)
        m.report.starts l.report.starts ∧
      ∃ t' t, m.report.elapsed = some t' ∧ l.report.elapsed = some t ∧ t' ≤ t := by
  have hret' := h.returned hret
  have houtcome : l.outcome.returned = true := by rwa [← returned_report]
  have houtcome' : m.outcome.returned = true := by rwa [← returned_report]
  have hstart : ({} : Pool β).Ahead ({} : Pool α) := ⟨le_rfl, fun _ _ => le_rfl, .nil⟩
  obtain ⟨hclock, hstarts⟩ := hstart.run h.workers (Nat.zero_le _) (Nat.zero_le _)
    Pool.ordered_empty h.agenda l.limits.workers_pos houtcome' houtcome
  refine ⟨hret', ?_, m.outcome.pool.clock, l.outcome.pool.clock, ?_, ?_, hclock⟩
  · rw [starts_report, starts_report]
    exact hstarts
  · rw [elapsed_report, if_pos houtcome']
  · rw [elapsed_report, if_pos houtcome]

/-- The load with every kind of trouble, but with a third worker, a shorter timeout and a first page
that takes no time. -/
def brisk : Load String String :=
  { troubled with
    limits := { concurrency := 3, timeoutMillis := some 7 }
    listing := troubled.listing.map fun pages => pages.map fun page => { page with delay := 0 } }

/-- The load with every kind of trouble takes 13 milliseconds, and no more than 7 of them if it has
less to wait for. -/
theorem elapsed_brisk :
    troubled.report.elapsed = some 13 ∧ brisk.report.elapsed = some 7 ∧
      brisk.report.starts.map Start.instant = [0, 0, 0, 3, 4] ∧
      List.Forall₂ (fun s' s => s'.item = s.item ∧ s'.instant ≤ s.instant)
        brisk.report.starts troubled.report.starts := by
  have heases : brisk.Eases troubled := by
    refine ⟨rfl, by decide, ?_, by decide⟩
    exact .cons ⟨rfl, by decide⟩ (.cons ⟨rfl, by decide⟩ (.cons ⟨rfl, by decide⟩ .nil))
  exact ⟨by decide, by decide, by decide, (elapsed_le_of_eases heases (by decide)).2.1⟩

end Load

end KeyIntake
