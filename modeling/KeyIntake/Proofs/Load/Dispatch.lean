import KeyIntake.Proofs.Load.Concurrency
/-!
# Which items are fetched, and when a load returns

The items fetched are the selected ones in listing order, up to the stuck one that takes the last
worker. A load returns iff no selected item is stuck, and what it reports depends on the fetches
that it made and on no other: nothing else is ever asked for.

## Main definitions

* `Step.rejob` — a step with another job for its item.
* `Load.FetchesSelected` — what is fetched in a load, and when the load returns.

## Main results

* `Pool.run_map_rejob` — a run depends only on the jobs that it starts.
* `Load.fetchesSelected_report`, `Load.report_withFetch` — the same for loads and their fetches.
* `Source.fetches_selected` — the loads of the two kinds.
-/

set_option relaxedAutoImplicit false
set_option autoImplicit false

namespace KeyIntake

variable {α : Type}

/-! ### Other jobs for the same items -/

/-- The step with another job for the item of its job. -/
def Step.rejob (g : Item → Job α) : Step α → Step α
  | start job => start (g job.item)
  | step => step

/-- A step without a job stays as it is. -/
lemma Step.rejob_of_job?_eq_none {step : Step α} (h : step.job? = none) (g : Item → Job α) :
    step.rejob g = step := by
  cases step with
  | start job => exact absurd h (Option.some_ne_none job)
  | await _ => rfl
  | reject _ _ => rfl
  | close _ _ _ => rfl
  | abandon _ _ => rfl

namespace Agenda

variable (q : TagQuery) {job : Item → Job α} (hitem : ∀ item, (job item).item = item)
  (g : Item → Job α)

include hitem

/-- Other jobs for the items of a page make the agenda of these jobs. -/
lemma map_rejob_ofEntries (entries : List ListingEntry) :
    (ofEntries q job entries).map (Step.rejob g) = ofEntries q g entries := by
  induction entries with
  | nil => rfl
  | cons entry rest ih =>
    cases entry with
    | unreadable name fault => rw [ofEntries_cons_unreadable, List.map_cons, ih]; rfl
    | readable item =>
      rw [ofEntries_cons_readable, ofEntries_cons_readable]
      split
      · rw [List.map_cons, ih, Step.rejob, hitem]
      · exact ih

/-- Other jobs for the items of a listing make the agenda of these jobs. -/
lemma map_rejob_ofPages (n : Nat) (pages : List Page) :
    (ofPages q job n pages).map (Step.rejob g) = ofPages q g n pages := by
  induction pages generalizing n with
  | nil => rfl
  | cons page pages ih =>
    cases hpage : page.content with
    | error fault =>
      rw [ofPages_cons_error q job n pages hpage, ofPages_cons_error q g n pages hpage]
      rfl
    | ok entries =>
      rw [ofPages_cons_ok q job n pages hpage, ofPages_cons_ok q g n pages hpage, List.map_cons,
        List.map_append, List.map_cons, map_rejob_ofEntries q hitem, ih]
      rfl

end Agenda

namespace Pool

variable {workers : Nat}

/-- **A run depends only on the jobs that it starts**: other jobs in place of those that are not
started make no difference.

**Proof sketch.** Induction on the agenda. A job that the pool gets beyond is among the starts in
the end, so it is not replaced; a job that is waited for forever has no influence on the outcome. -/
theorem run_map_rejob (g : Item → Job α) (p : Pool α) (steps : List (Step α))
    (hp : p.inFlight ≤ workers)
    (h : ∀ job ∈ steps.filterMap Step.job?,
      job.item ∈ (run workers p steps).pool.starts.map Start.item → g job.item = job) :
    run workers p (steps.map (Step.rejob g)) = run workers p steps := by
  induction steps generalizing p with
  | nil => rfl
  | cons step steps ih =>
    rw [List.map_cons]
    rcases run_cons workers p step with ⟨p', hadv, hrun⟩ | ⟨hblock, hrun⟩
    · have hp' := inFlight_advance hadv hp
      rw [hrun] at h
      have hsame : step.rejob g = step := by
        cases hjob : step.job? with
        | none => exact Step.rejob_of_job?_eq_none hjob g
        | some job =>
          obtain rfl := Step.eq_start_of_job?_eq_some hjob
          have hstarted : job.item ∈ p'.starts.map Start.item := by
            rw [starts_advance hadv]
            exact List.mem_append_right _ (List.mem_singleton_self _)
          have hkept := (Moment.extends_run p' steps hp' .refl).starts.map Start.item
          rw [Step.rejob, h job List.mem_cons_self (hkept.subset hstarted)]
      rw [hsame, hrun, hrun]
      refine ih p' hp' fun job hjob => h job ?_
      cases hstep : step.job? with
      | none => rwa [List.filterMap_cons_none hstep]
      | some job' =>
        rw [List.filterMap_cons_some hstep]
        exact List.mem_cons_of_mem job' hjob
    · obtain ⟨job, rfl⟩ := hblock.isJob
      have hblock' : Blocked workers p (.start (g job.item)) :=
        ⟨⟨_, rfl⟩, hblock.full, hblock.queue_eq_nil⟩
      rw [hrun]
      exact hblock'.run_eq _

end Pool

/-! ### Loads -/

namespace Load

variable {ι : Type} (l : Load ι α)

/-- **What is fetched in a load** with a report, and when the load returns. -/
structure FetchesSelected (r : Report α) : Prop where
  /-- The selected items are fetched in listing order, and the last one is the stuck item that takes
  the last worker. -/
  items : r.starts.map Start.item = cutAfter l.isStuck (max 1 l.limits.concurrency) l.selected
  /-- All selected items are fetched if fewer of them are stuck than there are workers. -/
  all_of_lt : l.selected.countP l.isStuck < max 1 l.limits.concurrency →
    r.starts.map Start.item = l.selected
  /-- Otherwise the first of them are fetched, as many stuck ones as there are workers, and one of
  these is the last. -/
  last_of_le : max 1 l.limits.concurrency ≤ l.selected.countP l.isStuck →
    r.starts.map Start.item <+: l.selected ∧
      (r.starts.map Start.item).countP l.isStuck = max 1 l.limits.concurrency ∧
      ∃ item, (r.starts.map Start.item).getLast? = some item ∧ l.isStuck item = true
  /-- An item that is fetched is listed with its metadata, and the query selects it. -/
  listed : ∀ start ∈ r.starts,
    .readable start.item ∈ l.entries ∧ l.query.selects start.item.tags = true
  /-- These fetches are made after finitely many moments, and no moment has made others. -/
  moments : (∃ m, l.Reaches m ∧ m.pool.starts = r.starts) ∧
    ∀ m, l.Reaches m → m.pool.starts <+: r.starts
  /-- The load returns iff no selected item is stuck. -/
  returned_iff : r.returned = true ↔ ∀ item ∈ l.selected, l.isStuck item = false
  /-- Its moments come to an end iff it returns. -/
  over_iff : (∃ m, l.Reaches m ∧ m.Over l.limits.workers) ↔ r.returned = true
  /-- With a timeout it always returns. -/
  returned_of_timeout : l.limits.timeoutMillis.isSome = true → r.returned = true

/-- No item is stuck if there is a timeout. -/
lemma isStuck_of_timeout (h : l.limits.timeoutMillis.isSome = true) (item : Item) :
    l.isStuck item = false := by
  unfold isStuck
  split
  · rename_i htime
    rw [htime] at h
    exact absurd h Bool.false_ne_true
  · rfl

/-- A selected item is listed with its metadata, and the query selects it. -/
lemma mem_selected_iff {item : Item} :
    item ∈ l.selected ↔ .readable item ∈ l.entries ∧ l.query.selects item.tags = true := by
  rw [selected, TagQuery.selected, List.mem_filterMap]
  constructor
  · rintro ⟨entry, hentry, hsel⟩
    cases entry with
    | unreadable name fault => exact absurd hsel (Option.some_ne_none item).symm
    | readable item' =>
      obtain ⟨htags, heq⟩ := Option.ite_none_right_eq_some.mp hsel
      exact Option.some.inj heq ▸ ⟨hentry, htags⟩
  · rintro ⟨hentry, htags⟩
    exact ⟨.readable item, hentry, if_pos htags⟩

variable [BEq α]

/-- The items fetched in a load are those of its outcome. -/
lemma items_report :
    l.report.starts.map Start.item = cutAfter l.isStuck l.limits.workers l.selected := by
  rw [starts_report, starts_outcome]

/-- A load returns iff no selected item is stuck. -/
lemma returned_report_iff :
    l.report.returned = true ↔ ∀ item ∈ l.selected, l.isStuck item = false := by
  rw [returned_report, returned_outcome_iff]

/-- **A load fetches the selected items** and returns iff none of them is stuck. -/
theorem fetchesSelected_report : l.FetchesSelected l.report where
  items := l.items_report
  all_of_lt h := l.items_report.trans (cutAfter_of_countP_lt _ h)
  last_of_le h := by
    rw [items_report]
    exact ⟨cutAfter_prefix_self _ _ _, cutAfter_of_le_countP _ l.limits.workers_pos h⟩
  listed start hstart := by
    have hmem : start.item ∈ l.report.starts.map Start.item := List.mem_map_of_mem hstart
    rw [items_report] at hmem
    exact l.mem_selected_iff.mp ((cutAfter_prefix_self _ _ _).subset hmem)
  moments := by
    rw [starts_report]
    refine ⟨?_, fun m h => (l.extends_outcome h).starts⟩
    obtain ⟨m, hreach, hpool⟩ := l.exists_reaches_outcome
    exact ⟨m, hreach, by rw [hpool]⟩
  returned_iff := l.returned_report_iff
  over_iff := l.exists_over_iff_returned
  returned_of_timeout h := l.returned_report_iff.mpr fun item _ => l.isStuck_of_timeout h item

/-- The load with other fetches. -/
def withFetch (fetch : Item → Fetch ι) : Load ι α := { l with fetch }

/-- **The report of a load depends only on the fetches that were made.**

**Proof sketch.** Fetches that agree on the items started make the same jobs for them, and a run
depends only on the jobs that it starts. -/
theorem report_withFetch (fetch : Item → Fetch ι)
    (h : ∀ start ∈ l.report.starts, fetch start.item = l.fetch start.item) :
    (l.withFetch fetch).report = l.report := by
  have hrun : (l.withFetch fetch).outcome = l.outcome := by
    have hagenda := Agenda.map_rejob_ofPages l.query l.item_job (l.withFetch fetch).job 0 l.pages
    rw [outcome, outcome]
    refine Eq.trans ?_ (Pool.run_map_rejob (l.withFetch fetch).job {} _ (Nat.zero_le _) ?_)
    · rw [hagenda]
      rfl
    · rw [jobs_agenda, List.forall_mem_map]
      intro item _ hstarted
      obtain ⟨start, hstart, hitem⟩ := List.mem_map.mp hstarted
      have hfetch := h start (by rw [starts_report]; exact hstart)
      rw [show start.item = item from hitem] at hfetch
      show Job.of _ fetch _ item = Job.of _ l.fetch _ item
      simp only [Job.of, hfetch]
      rfl
  cases hopen : l.listing with
  | error fault =>
    have hopen' : (l.withFetch fetch).listing = .error fault := hopen
    rw [report_of_error hopen, report_of_error hopen']
    rfl
  | ok pages =>
    have hopen' : (l.withFetch fetch).listing = .ok pages := hopen
    rw [report_of_ok hopen, report_of_ok hopen', hrun]
    rfl

end Load

/-! ### The loads of the two kinds -/

namespace Source

variable {β : Type} [BEq α] [BEq β] (s : Source) (limits : Limits) (q : TagQuery)
  (mapping : Mapping String α) (mapping' : Mapping SigningKey β)

/-- **Exactly the selected items are fetched**, secrets by name and keys by name and version: every
load fetches the selected items up to the stuck one that takes the last worker and returns iff none
is stuck, and its report does not change if any other fetch does. -/
theorem fetches_selected :
    (s.secretLoad limits q mapping).FetchesSelected (s.loadSecrets limits q mapping) ∧
      (∀ secret : String → Fetch String,
        (∀ start ∈ (s.loadSecrets limits q mapping).starts,
          secret start.item.name = s.secret start.item.name) →
        { s with secret }.loadSecrets limits q mapping = s.loadSecrets limits q mapping) ∧
      (s.keyLoad limits q mapping').FetchesSelected (s.loadKeys limits q mapping') ∧
      ∀ key : String → Option String → Fetch SigningKey,
        (∀ start ∈ (s.loadKeys limits q mapping').starts,
          key start.item.name start.item.version = s.key start.item.name start.item.version) →
        { s with key }.loadKeys limits q mapping' = s.loadKeys limits q mapping' := by
  refine ⟨?_, fun secret h => ?_, ?_, fun key h => ?_⟩
  · rw [← report_secretLoad]
    exact Load.fetchesSelected_report _
  · exact Load.report_withFetch (s.secretLoad limits q mapping) (fun item => secret item.name) h
  · rw [← report_keyLoad]
    exact Load.fetchesSelected_report _
  · exact Load.report_withFetch (s.keyLoad limits q mapping')
      (fun item => key item.name item.version) h

/-- Two workers get as far as the second secret that never ends, one worker as far as the first
key. -/
theorem fetches_stalling :
    (stalling.loadSecrets { concurrency := 2 } {} Mapping.whole).starts.map (·.item.name) =
        ["alpha", "bravo", "carol"] ∧
      (stalling.loadKeys { concurrency := 0 } {} fun _ key => .value [key.id]).starts.map
        (·.item.name) = ["alpha"] ∧
      (stalling.loadSecrets { concurrency := 2, timeoutMillis := some 5 } {}
        Mapping.whole).returned = true := by
  have h := fetches_selected stalling { concurrency := 2 } {} Mapping.whole
    fun _ key => .value [key.id]
  have h₁ := fetches_selected stalling { concurrency := 0 } {} Mapping.whole
    fun _ key => .value [key.id]
  have h₂ := fetches_selected stalling { concurrency := 2, timeoutMillis := some 5 } {}
    Mapping.whole fun _ key => .value [key.id]
  refine ⟨?_, ?_, h₂.1.returned_of_timeout rfl⟩
  · have hitems := congrArg (List.map Item.name) h.1.items
    rw [List.map_map] at hitems
    exact hitems.trans (by decide)
  · have hitems := congrArg (List.map Item.name) h₁.2.2.1.items
    rw [List.map_map] at hitems
    exact hitems.trans (by decide)

end Source

end KeyIntake
