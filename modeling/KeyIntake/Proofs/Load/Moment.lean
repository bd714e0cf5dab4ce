import KeyIntake.Proofs.Load.Progress
import Mathlib.Logic.Relation
/-!
# A run, moment by moment

A run of a pool takes an agenda step by step and lets any amount of time pass at once. Here the same
run is taken apart: between two moments at most one millisecond passes, one job is started, one is
collected, or one event is noted. Every moment of the run can be looked at, also while a page is
awaited, while a job waits for a worker, while the last jobs are collected, and forever after if the
run does not return.

## Main definitions

* `Moment` — a pool and the steps that are left; `Moment.next?` is what comes next.
* `Moment.Tick`, `Moment.Leads` — one moment follows another, at once or in the end.
* `Moment.Idle` — nothing but waiting will ever happen again.
* `Pool.Extends` — the history of a pool goes on from that of another one.

## Main results

* `Moment.leads_run` — the outcome of a run is met at some moment, and from there on nothing
  happens.
* `Moment.exists_over_iff` — the moments come to an end iff the run returns.
* `Moment.extends_run` — the outcome of a run has the history of every moment in it.
-/

set_option relaxedAutoImplicit false
set_option autoImplicit false

namespace KeyIntake

variable {α : Type}

/-- A moment of a run: the pool, and the steps that it has not carried out yet. -/
structure Moment (α : Type) where
  pool : Pool α
  todo : List (Step α)

/-- The history of a pool goes on from that of another one. -/
structure Pool.Extends (p p' : Pool α) : Prop where
  starts : p.starts <+: p'.starts
  trace : p.trace <+: p'.trace
  peak : p.peak ≤ p'.peak

namespace Moment

/-! ### What comes next -/

/-- Wait for a job: collect the one that ends first if it has ended by now, else let a millisecond
pass. -/
def join (m : Moment α) : Moment α :=
  match m.pool.queue with
  | [] => { m with pool := m.pool.wait 1 }
  | u :: rest =>
    if u.finish ≤ m.pool.clock then { m with pool := m.pool.collect u rest }
    else { m with pool := m.pool.wait 1 }

/-- The next moment. A page is awaited millisecond by millisecond; a job waits as long as there are
as many jobs in flight as workers; the last jobs are collected one by one. A run is over when
nothing is left to do and no job is in flight. -/
def next? (workers : Nat) (m : Moment α) : Option (Moment α) :=
  match m.todo with
  | [] => if m.pool.inFlight = 0 then none else some m.join
  | .await 0 :: todo => some ⟨m.pool, todo⟩
  | .await (delay + 1) :: todo => some ⟨m.pool.wait 1, .await delay :: todo⟩
  | .reject name fault :: todo => some ⟨m.pool.note (.unreadable name fault), todo⟩
  | .close page listed selected :: todo =>
    some ⟨m.pool.note (.pageDone page listed selected), todo⟩
  | .abandon page fault :: todo => some ⟨m.pool.note (.pageLost page fault), todo⟩
  | .start job :: todo =>
    if m.pool.inFlight < workers then some ⟨m.pool.launch job, todo⟩ else some m.join

/-- One moment comes right after another. -/
def Tick (workers : Nat) (m m' : Moment α) : Prop := m.next? workers = some m'

/-- One moment comes some time after another. -/
def Leads (workers : Nat) : Moment α → Moment α → Prop := Relation.ReflTransGen (Tick workers)

/-- The run is over. -/
def Over (workers : Nat) (m : Moment α) : Prop := m.next? workers = none

/-- A job has to be collected before anything else is done. -/
def Waits (workers : Nat) (m : Moment α) : Prop :=
  (m.todo = [] ∧ 0 < m.pool.inFlight) ∨
    ∃ job todo, m.todo = .start job :: todo ∧ ¬ m.pool.inFlight < workers

variable {workers : Nat} {p p' : Pool α} {m m' : Moment α} {todo : List (Step α)}

/-- At most one moment comes right after another. -/
lemma tick_rightUnique : Relator.RightUnique (Tick (α := α) workers) := by
  intro m m₁ m₂ h₁ h₂
  exact Option.some.inj (h₁.symm.trans h₂)

/-- What comes next while a job has to be collected. -/
lemma next?_of_waits (h : m.Waits workers) : m.next? workers = some m.join := by
  rcases m with ⟨p, todo⟩
  rcases h with ⟨rfl, hpos⟩ | ⟨job, todo, rfl, hfull⟩
  · exact if_neg (Nat.pos_iff_ne_zero.mp hpos)
  · exact if_neg hfull

/-- **What can happen between two moments**: a step that starts no job is carried out or goes on, a
job is started, or one is waited for, in which case either time passes or a job that has ended is
collected. -/
inductive Happens (workers : Nat) : Moment α → Moment α → Prop where
  /-- A page has arrived. -/
  | arrive (p : Pool α) (todo : List (Step α)) : Happens workers ⟨p, .await 0 :: todo⟩ ⟨p, todo⟩
  /-- A page is on its way. -/
  | await (p : Pool α) (delay : Nat) (todo : List (Step α)) :
      Happens workers ⟨p, .await (delay + 1) :: todo⟩ ⟨p.wait 1, .await delay :: todo⟩
  /-- A step is noted that starts no job. -/
  | note (p : Pool α) {step : Step α} (todo : List (Step α)) {e : Event α}
      (hjob : step.job? = none) (he : step.events = [e]) :
      Happens workers ⟨p, step :: todo⟩ ⟨p.note e, todo⟩
  /-- A job is started. -/
  | launch (p : Pool α) (job : Job α) (todo : List (Step α)) (hfree : p.inFlight < workers) :
      Happens workers ⟨p, .start job :: todo⟩ ⟨p.launch job, todo⟩
  /-- A job that has ended is collected. -/
  | collect (p : Pool α) (todo : List (Step α)) {u : Running α} {rest : List (Running α)}
      (hwait : Waits workers ⟨p, todo⟩) (hq : p.queue = u :: rest) (hdone : u.finish ≤ p.clock) :
      Happens workers ⟨p, todo⟩ ⟨p.collect u rest, todo⟩
  /-- No job has ended that could be collected. -/
  | pass (p : Pool α) (todo : List (Step α)) (hwait : Waits workers ⟨p, todo⟩)
      (hbusy : ∀ u ∈ p.queue.head?, p.clock < u.finish) :
      Happens workers ⟨p, todo⟩ ⟨p.wait 1, todo⟩

/-- Waiting for a job is one of the things that can happen. -/
lemma happens_join (h : Waits workers ⟨p, todo⟩) :
    Happens workers ⟨p, todo⟩ (join ⟨p, todo⟩) := by
  unfold join
  cases hq : p.queue with
  | nil => exact .pass p todo h (by simp [hq])
  | cons u rest =>
    dsimp only
    split
    case isTrue hdone => exact .collect p todo h hq hdone
    case isFalse hdone => exact .pass p todo h (by simpa [hq] using hdone)

/-- Nothing else happens between two moments. -/
theorem Tick.happens (h : Tick workers m m') : Happens workers m m' := by
  rcases m with ⟨p, todo⟩
  unfold Tick at h
  cases todo with
  | nil =>
    by_cases hpos : p.inFlight = 0
    · simp [next?, hpos] at h
    · have hwait : Waits workers ⟨p, []⟩ := .inl ⟨rfl, Nat.pos_of_ne_zero hpos⟩
      rw [next?_of_waits hwait] at h
      exact Option.some.inj h ▸ happens_join hwait
  | cons step todo =>
    cases step with
    | await delay =>
      cases delay with
      | zero => exact Option.some.inj h ▸ .arrive p todo
      | succ delay => exact Option.some.inj h ▸ .await p delay todo
    | reject name fault => exact Option.some.inj h ▸ .note p todo rfl rfl
    | close page listed selected => exact Option.some.inj h ▸ .note p todo rfl rfl
    | abandon page fault => exact Option.some.inj h ▸ .note p todo rfl rfl
    | start job =>
      by_cases hfree : p.inFlight < workers
      · simp only [next?, hfree, ↓reduceIte] at h
        exact Option.some.inj h ▸ .launch p job todo hfree
      · have hwait : Waits workers ⟨p, .start job :: todo⟩ := .inr ⟨job, todo, rfl, hfree⟩
        rw [next?_of_waits hwait] at h
        exact Option.some.inj h ▸ happens_join hwait

/-! ### The moments of a run -/

/-- Waiting twice is waiting once. -/
lemma wait_wait (p : Pool α) (a b : Nat) : (p.wait a).wait b = p.wait (a + b) := by
  simp only [Pool.wait, Nat.add_assoc]

/-- A page arrives when its delay is over. -/
lemma leads_await (p : Pool α) (delay : Nat) (todo : List (Step α)) :
    Leads workers ⟨p, .await delay :: todo⟩ ⟨p.wait delay, todo⟩ := by
  induction delay generalizing p with
  | zero => exact .single rfl
  | succ delay ih =>
    have h := ih (p.wait 1)
    rw [wait_wait, Nat.add_comm] at h
    exact .head rfl h

/-- A job that is waited for is collected when it has ended.

**Proof sketch.** Induction on the time that is left until the job ends: a millisecond less does not
change what is collected in the end. -/
lemma leads_collect {u : Running α} {rest : List (Running α)} (hwait : Waits workers ⟨p, todo⟩)
    (hq : p.queue = u :: rest) : Leads workers ⟨p, todo⟩ ⟨p.collect u rest, todo⟩ := by
  induction hleft : u.finish - p.clock generalizing p with
  | zero =>
    have hdone : u.finish ≤ p.clock := Nat.le_of_sub_eq_zero hleft
    refine .single ?_
    rw [Tick, next?_of_waits hwait, join]
    simp only [hq, hdone, ↓reduceIte]
  | succ left ih =>
    have hbusy : ¬ u.finish ≤ p.clock := by omega
    have hclock : (p.wait 1).clock = p.clock + 1 := rfl
    have hcollect : (p.wait 1).collect u rest = p.collect u rest := by
      have hmax : max (p.clock + 1) u.finish = max p.clock u.finish := by omega
      simp only [Pool.collect, Pool.wait, hmax]
    have h := ih (p := p.wait 1) hwait hq (by omega)
    rw [hcollect] at h
    refine .head ?_ h
    rw [Tick, next?_of_waits hwait, join]
    simp only [hq, hbusy, ↓reduceIte]

/-- A step that a pool gets beyond is carried out moment by moment. -/
lemma leads_advance {step : Step α} (h : Pool.Advance workers p step p')
    (hp : p.inFlight ≤ workers) (todo : List (Step α)) :
    Leads workers ⟨p, step :: todo⟩ ⟨p', todo⟩ := by
  cases h with
  | wait delay => exact leads_await p delay todo
  | note hjob he =>
    cases step with
    | await delay => exact absurd he.symm (List.cons_ne_nil _ _)
    | start job => exact absurd hjob (Option.some_ne_none job)
    | reject name fault => exact List.singleton_inj.mp he ▸ .single rfl
    | close page listed selected => exact List.singleton_inj.mp he ▸ .single rfl
    | abandon page fault => exact List.singleton_inj.mp he ▸ .single rfl
  | launch job hfree => exact .single (if_pos hfree)
  | relay job hfull hq =>
    have hfree := Pool.inFlight_collect hq
    refine (leads_collect (.inr ⟨job, todo, rfl, hfull⟩) hq).tail (if_pos ?_)
    show (p.collect _ _).inFlight < workers
    omega

/-- The jobs of a queue are collected one by one. -/
lemma leads_drainFrom (p : Pool α) {queue : List (Running α)} (hq : p.queue = queue) :
    Leads workers ⟨p, []⟩ ⟨p.drainFrom queue, []⟩ ∧ (p.drainFrom queue).queue = [] := by
  induction queue generalizing p with
  | nil => exact ⟨.refl, hq⟩
  | cons u rest ih =>
    have hpos : 0 < p.inFlight := by
      rw [Pool.inFlight, hq, List.length_cons]
      omega
    obtain ⟨hleads, hnil⟩ := ih (p.collect u rest) rfl
    exact ⟨(leads_collect (.inl ⟨rfl, hpos⟩) hq).trans hleads, hnil⟩

/-! ### Nothing but waiting -/

/-- All jobs in flight never end, and one of them would have to be collected before anything else is
done. -/
structure Idle (workers : Nat) (m : Moment α) : Prop where
  waits : m.Waits workers
  queue_eq_nil : m.pool.queue = []

/-- An idle pool only lets time pass. -/
lemma Idle.next? (h : m.Idle workers) : m.next? workers = some ⟨m.pool.wait 1, m.todo⟩ := by
  rw [next?_of_waits h.waits, join, h.queue_eq_nil]

/-- **An idle pool stays idle**: it lets time pass and does nothing else. -/
lemma Idle.leads (h : m.Idle workers) (hleads : Leads workers m m') :
    m'.Idle workers ∧ ∃ delay, m' = ⟨m.pool.wait delay, m.todo⟩ := by
  induction hleads with
  | refl => exact ⟨h, 0, rfl⟩
  | tail _ htick ih =>
    obtain ⟨hidle, delay, rfl⟩ := ih
    obtain rfl := Option.some.inj (hidle.next?.symm.trans htick)
    refine ⟨⟨hidle.waits, hidle.queue_eq_nil⟩, delay + 1, ?_⟩
    rw [wait_wait]

/-- **The outcome of a run is met at some moment.** If the run returns, that moment is the last one;
if it does not, nothing but waiting happens from there on.

**Proof sketch.** Induction on the agenda: each step that the pool gets beyond leads to the next
one, and in the end the jobs of the queue are collected. -/
theorem leads_run (p : Pool α) (steps : List (Step α)) (hp : p.inFlight ≤ workers) :
    ∃ m, Leads workers ⟨p, steps⟩ m ∧ m.pool = (Pool.run workers p steps).pool ∧
      if (Pool.run workers p steps).returned then m.Over workers else m.Idle workers := by
  induction steps generalizing p with
  | nil =>
    obtain ⟨hleads, hnil⟩ : Leads workers ⟨p, []⟩ ⟨p.drainFrom p.queue, []⟩ ∧
        (p.drainFrom p.queue).queue = [] := leads_drainFrom p rfl
    have hstuck := (Pool.drainFrom_frame p p.queue).2.1
    have hflight : (p.drainFrom p.queue).inFlight = p.stuck := by
      rw [Pool.inFlight, hnil, hstuck, List.length_nil, Nat.zero_add]
    refine ⟨_, hleads, rfl, ?_⟩
    rw [Pool.run_nil, Pool.drain]
    dsimp only
    split
    case isTrue h => exact if_pos (hflight.trans (beq_iff_eq.mp h))
    case isFalse h =>
      have hpos : 0 < p.stuck := Nat.pos_of_ne_zero fun h0 => h (beq_iff_eq.mpr h0)
      exact ⟨.inl ⟨rfl, hflight ▸ hpos⟩, hnil⟩
  | cons step steps ih =>
    rcases Pool.run_cons workers p step with ⟨p', hadv, hrun⟩ | ⟨hblock, hrun⟩
    · obtain ⟨m, hleads, hpool, hend⟩ := ih p' (Pool.inFlight_advance hadv hp)
      rw [hrun]
      exact ⟨m, (leads_advance hadv hp steps).trans hleads, hpool, hend⟩
    · obtain ⟨job, rfl⟩ := hblock.isJob
      rw [hrun]
      exact ⟨_, .refl, rfl, .inr ⟨job, steps, rfl, hblock.full⟩, hblock.queue_eq_nil⟩

/-! ### The end of the moments -/

/-- Of two moments of a run one leads to the other. -/
lemma leads_total {m₁ m₂ : Moment α} (h₁ : Leads workers m m₁) (h₂ : Leads workers m m₂) :
    Leads workers m₁ m₂ ∨ Leads workers m₂ m₁ :=
  Relation.ReflTransGen.total_of_right_unique tick_rightUnique h₁ h₂

/-- Nothing comes after the last moment. -/
lemma Over.eq_of_leads (h : m.Over workers) (hleads : Leads workers m m') : m' = m := by
  rcases hleads.cases_head with heq | ⟨m₁, htick, -⟩
  · exact heq.symm
  · exact absurd (htick.symm.trans h) (Option.some_ne_none m₁)

/-- **The moments come to an end iff the run returns.** -/
theorem exists_over_iff (p : Pool α) (steps : List (Step α)) (hp : p.inFlight ≤ workers) :
    (∃ m, Leads workers ⟨p, steps⟩ m ∧ m.Over workers) ↔
      (Pool.run workers p steps).returned = true := by
  obtain ⟨mEnd, hleads, -, hend⟩ := leads_run p steps hp
  constructor
  · rintro ⟨m, hm, hover⟩
    by_contra hret
    rw [if_neg hret] at hend
    have hidle : m.Idle workers := by
      rcases leads_total hm hleads with h | h
      · exact hover.eq_of_leads h ▸ hend
      · exact (hend.leads h).1
    exact absurd (hidle.next?.symm.trans hover) (Option.some_ne_none _)
  · intro hret
    rw [if_pos hret] at hend
    exact ⟨mEnd, hleads, hend⟩

/-! ### History -/

/-- A pool goes on from itself. -/
lemma extends_rfl (p : Pool α) : p.Extends p :=
  ⟨List.prefix_rfl, List.prefix_rfl, Nat.le_refl _⟩

/-- What happens between two moments only adds to the history. -/
lemma Happens.extends (h : Happens workers m m') : m.pool.Extends m'.pool := by
  cases h with
  | arrive => exact extends_rfl _
  | await => exact ⟨List.prefix_rfl, List.prefix_rfl, Nat.le_refl _⟩
  | note => exact ⟨List.prefix_rfl, List.prefix_append _ _, Nat.le_refl _⟩
  | launch p job =>
    have hstarts := p.starts_launch job
    have htrace := p.trace_launch job
    have hpeak := p.peak_launch job
    exact ⟨⟨_, hstarts.symm⟩, ⟨[], (List.append_nil _).trans htrace.symm⟩,
      (Nat.le_max_left _ _).trans hpeak.symm.le⟩
  | collect => exact ⟨List.prefix_rfl, List.prefix_append _ _, Nat.le_refl _⟩
  | pass => exact ⟨List.prefix_rfl, List.prefix_rfl, Nat.le_refl _⟩

/-- A later moment has a longer history. -/
lemma Leads.extends (h : Leads workers m m') : m.pool.Extends m'.pool := by
  induction h with
  | refl => exact extends_rfl _
  | tail _ htick ih =>
    have hnext := htick.happens.extends
    exact ⟨ih.starts.trans hnext.starts, ih.trace.trans hnext.trace, ih.peak.trans hnext.peak⟩

/-- **The outcome of a run has the history of every moment in it**, also of those after it: nothing
is started, collected or noted any more. -/
theorem extends_run (p : Pool α) (steps : List (Step α)) (hp : p.inFlight ≤ workers)
    (h : Leads workers ⟨p, steps⟩ m) : m.pool.Extends (Pool.run workers p steps).pool := by
  obtain ⟨mEnd, hleads, hpool, hend⟩ := leads_run p steps hp
  rw [← hpool]
  rcases leads_total h hleads with hlater | hlater
  · exact hlater.extends
  · split at hend
    · exact hend.eq_of_leads hlater ▸ extends_rfl _
    · obtain ⟨-, delay, rfl⟩ := hend.leads hlater
      exact ⟨List.prefix_rfl, List.prefix_rfl, Nat.le_refl _⟩

end Moment

end KeyIntake
