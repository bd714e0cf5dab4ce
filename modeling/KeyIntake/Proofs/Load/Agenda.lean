import KeyIntake.Load.Agenda
import KeyIntake.Load.Event
import Mathlib.Algebra.Order.Group.Multiset
import Mathlib.Data.List.Forall2
import Mathlib.Tactic.Abel
/-!
# What an agenda asks for

The agenda of a listing is read here without any pool: which jobs it starts, and which events a pool
with unlimited patience and no concurrency at all would note, step by step. Both are described by
the entries of the pages before the first failing one.

## Main definitions

* `Step.job?` — the job that a step starts.
* `Job.events`, `Step.events` — the events of a job and of a step.
* `Page.failure?` — the fault of the first page that fails.
* `ListingEntry.unreadable?` — the name and the fault of an unreadable entry.
* `Step.Related` — steps of two agendas side by side.

## Main results

* `Agenda.jobs_ofPages` — the jobs of an agenda are those of the selected items, in listing order.
* `Agenda.events_ofPages_perm` — the events of an agenda, sorted by what they report.
* `Agenda.reports_ofPages` — the reports on pages among the events of an agenda, in order.
* `Agenda.related_ofPages` — agendas for the same entries agree step by step.
-/

set_option relaxedAutoImplicit false
set_option autoImplicit false

namespace KeyIntake

/-! ### Pages and entries -/

namespace Page

/-- The fault of the first page that fails. -/
def failure? : List Page → Option Fault
  | [] => none
  | page :: pages =>
    match page.content with
    | .ok _ => failure? pages
    | .error fault => some fault

variable {page : Page} {entries : List ListingEntry} {fault : Fault} (pages : List Page)

/-- A page that arrives comes first among the intact ones. -/
lemma intact_cons_ok (h : page.content = .ok entries) :
    intact (page :: pages) = entries :: intact pages := by
  simp only [intact, h]

/-- Nothing is intact behind a page that fails. -/
lemma intact_cons_error (h : page.content = .error fault) : intact (page :: pages) = [] := by
  simp only [intact, h]

/-- A page that arrives is not the one that fails. -/
lemma failure?_cons_ok (h : page.content = .ok entries) :
    failure? (page :: pages) = failure? pages := by
  simp only [failure?, h]

/-- A page that fails is the first one to do so if none is before it. -/
lemma failure?_cons_error (h : page.content = .error fault) :
    failure? (page :: pages) = some fault := by
  simp only [failure?, h]

end Page

/-- The name and the fault of an entry whose metadata could not be read. -/
def ListingEntry.unreadable? : ListingEntry → Option (String × Fault)
  | readable _ => none
  | unreadable name fault => some (name, fault)

namespace TagQuery

variable (q : TagQuery)

/-- No item is selected where nothing is listed. -/
@[simp] lemma selected_nil : q.selected [] = [] := rfl

/-- The selected items of a concatenation are selected part by part. -/
@[simp] lemma selected_append (xs ys : List ListingEntry) :
    q.selected (xs ++ ys) = q.selected xs ++ q.selected ys :=
  List.filterMap_append

/-- The selected items of all pages are as many as those of each page together. -/
lemma length_selected_flatten (pages : List (List ListingEntry)) :
    (q.selected pages.flatten).length =
      (pages.map fun entries => (q.selected entries).length).sum := by
  induction pages with
  | nil => rfl
  | cons entries pages ih =>
    rw [List.flatten_cons, selected_append, List.length_append, ih, List.map_cons, List.sum_cons]

/-- An unreadable entry selects nothing. -/
@[simp] lemma selected_cons_unreadable (name : String) (fault : Fault)
    (rest : List ListingEntry) :
    q.selected (.unreadable name fault :: rest) = q.selected rest := rfl

/-- A readable entry selects its item if the query does. -/
lemma selected_cons_readable (item : Item) (rest : List ListingEntry) :
    q.selected (.readable item :: rest) =
      if q.selects item.tags then item :: q.selected rest else q.selected rest := by
  by_cases h : q.selects item.tags = true <;> simp [selected, h]

end TagQuery

variable {α : Type}

/-! ### Steps -/

/-- The events of a job that is carried out: none if it never ends. -/
def Job.events (job : Job α) : List (Event α) :=
  match job.course with
  | none => []
  | some (_, .ok values) => [.loaded job.item.name values]
  | some (_, .error fault) => [.lost job.item.name fault]

/-- The event is the end of a job. -/
def Event.isOfJob : Event α → Bool
  | loaded _ _ | lost _ _ => true
  | _ => false

/-- The event reports a page as done. -/
def Event.isReport : Event α → Bool
  | pageDone .. => true
  | _ => false

/-- The end of a job reports no page as done. -/
lemma Event.isReport_of_isOfJob {e : Event α} (h : e.isOfJob = true) : e.isReport = false := by
  cases e <;> first | rfl | exact absurd h Bool.false_ne_true

/-- The events of a job are ends of jobs. -/
lemma Job.isOfJob_of_mem_events (job : Job α) {e : Event α} (h : e ∈ job.events) :
    e.isOfJob = true := by
  unfold Job.events at h
  split at h
  · exact absurd h List.not_mem_nil
  · rw [List.mem_singleton.mp h]
    rfl
  · rw [List.mem_singleton.mp h]
    rfl

/-- The job that a step starts. -/
def Step.job? : Step α → Option (Job α)
  | start job => some job
  | await _ | reject _ _ | close _ _ _ | abandon _ _ => none

/-- The start of a job is the step for that job. -/
lemma Step.jobs_cons_start (job : Job α) (steps : List (Step α)) :
    (.start job :: steps).filterMap Step.job? = job :: steps.filterMap Step.job? := rfl

/-- A step with a job is the start of that job. -/
lemma Step.eq_start_of_job?_eq_some {step : Step α} {job : Job α} (h : step.job? = some job) :
    step = .start job := by
  cases step with
  | start job' => rw [Option.some.inj h]
  | await _ => exact absurd h (Option.some_ne_none job).symm
  | reject _ _ => exact absurd h (Option.some_ne_none job).symm
  | close _ _ _ => exact absurd h (Option.some_ne_none job).symm
  | abandon _ _ => exact absurd h (Option.some_ne_none job).symm

/-- The events of a step that is carried out to its end at once. -/
def Step.events : Step α → List (Event α)
  | await _ => []
  | reject name fault => [.unreadable name fault]
  | start job => job.events
  | close page listed selected => [.pageDone page listed selected]
  | abandon page fault => [.pageLost page fault]

namespace Agenda

variable (q : TagQuery) (job : Item → Job α)

/-! ### The agenda of a page -/

/-- An unreadable entry is rejected. -/
@[simp] lemma ofEntries_cons_unreadable (name : String) (fault : Fault)
    (rest : List ListingEntry) :
    ofEntries q job (.unreadable name fault :: rest) =
      .reject name fault :: ofEntries q job rest := rfl

/-- A selected item has its job started; any other is passed over. -/
lemma ofEntries_cons_readable (item : Item) (rest : List ListingEntry) :
    ofEntries q job (.readable item :: rest) =
      if q.selects item.tags then .start (job item) :: ofEntries q job rest
      else ofEntries q job rest := by
  by_cases h : q.selects item.tags = true <;> simp [ofEntries, h]

/-- The jobs for the entries of a page are those of its selected items. -/
lemma jobs_ofEntries (entries : List ListingEntry) :
    (ofEntries q job entries).filterMap Step.job? = (q.selected entries).map job := by
  induction entries with
  | nil => rfl
  | cons entry rest ih =>
    cases entry with
    | unreadable name fault => exact ih
    | readable item =>
      rw [ofEntries_cons_readable, TagQuery.selected_cons_readable]
      split
      · rw [Step.jobs_cons_start, ih, List.map_cons]
      · exact ih

/-- The events of a page's entries: those of the unreadable entries and those of the jobs. -/
lemma events_ofEntries_perm (entries : List ListingEntry) :
    ((ofEntries q job entries).flatMap Step.events).Perm
      ((entries.filterMap ListingEntry.unreadable?).map (fun x => .unreadable x.1 x.2) ++
        (q.selected entries).flatMap fun item => (job item).events) := by
  induction entries with
  | nil => exact List.Perm.refl _
  | cons entry rest ih =>
    cases entry with
    | unreadable name fault => exact ih.cons _
    | readable item =>
      rw [ofEntries_cons_readable, TagQuery.selected_cons_readable,
        List.filterMap_cons_none rfl]
      split
      · -- the events of this job move behind those of the unreadable entries to come
        rw [List.flatMap_cons, List.flatMap_cons]
        exact (ih.append_left _).trans (List.perm_append_comm_assoc _ _ _)
      · exact ih

/-! ### The agenda of a listing -/

/-- The agenda of a page that arrives is followed by that of the pages behind it. -/
lemma ofPages_cons_ok (n : Nat) {page : Page} {entries : List ListingEntry} (pages : List Page)
    (h : page.content = .ok entries) :
    ofPages q job n (page :: pages) =
      .await page.delay :: (ofEntries q job entries ++
        .close n entries.length (q.selected entries).length :: ofPages q job (n + 1) pages) := by
  simp only [ofPages, h]

/-- The agenda ends with a page that fails. -/
lemma ofPages_cons_error (n : Nat) {page : Page} {fault : Fault} (pages : List Page)
    (h : page.content = .error fault) :
    ofPages q job n (page :: pages) = [.await page.delay, .abandon n fault] := by
  simp only [ofPages, h]

/-- **The jobs of an agenda** are those of the selected items in the pages before the first failing
one, in listing order. -/
theorem jobs_ofPages (n : Nat) (pages : List Page) :
    (ofPages q job n pages).filterMap Step.job? =
      (q.selected (Page.intact pages).flatten).map job := by
  induction pages generalizing n with
  | nil => rfl
  | cons page pages ih =>
    cases hpage : page.content with
    | error fault =>
      rw [ofPages_cons_error q job n pages hpage, Page.intact_cons_error pages hpage]
      rfl
    | ok entries =>
      rw [ofPages_cons_ok q job n pages hpage, Page.intact_cons_ok pages hpage,
        List.filterMap_cons_none rfl, List.filterMap_append, List.filterMap_cons_none rfl,
        jobs_ofEntries, ih, List.flatten_cons, TagQuery.selected_append, List.map_append]

/-- What an agenda awaits are the delays of pages. -/
lemma exists_page_of_await {n delay : Nat} {pages : List Page}
    (h : Step.await delay ∈ ofPages q job n pages) : ∃ page ∈ pages, page.delay = delay := by
  induction pages generalizing n with
  | nil => exact absurd h List.not_mem_nil
  | cons page pages ih =>
    have hentries (entries : List ListingEntry) :
        Step.await delay ∉ ofEntries q job entries := by
      intro hmem
      obtain ⟨entry, -, hentry⟩ := List.mem_filterMap.mp hmem
      cases entry <;> simp at hentry
    cases hpage : page.content with
    | error fault =>
      rw [ofPages_cons_error q job n pages hpage] at h
      exact ⟨page, List.mem_cons_self, by simpa [eq_comm] using h⟩
    | ok entries =>
      rw [ofPages_cons_ok q job n pages hpage, List.mem_cons, List.mem_append, List.mem_cons] at h
      rcases h with h | h | h | h
      · exact ⟨page, List.mem_cons_self, (Step.await.inj h).symm⟩
      · exact absurd h (hentries entries)
      · exact absurd h (by simp)
      · obtain ⟨page', hmem, hdelay⟩ := ih h
        exact ⟨page', List.mem_cons_of_mem page hmem, hdelay⟩

/-- The reports on pages, numbered from `n`, that are done. -/
def reports (n : Nat) (pages : List (List ListingEntry)) : List (Event α) :=
  (pages.zipIdx n).map fun x => .pageDone x.2 x.1.length (q.selected x.1).length

/-- The report on the page that fails, pages being numbered from `n`. -/
def losses (n : Nat) (pages : List Page) : List (Event α) :=
  (Page.failure? pages).toList.map (.pageLost (n + (Page.intact pages).length))

/-- **The events of an agenda**, sorted by what they report: unreadable entries, jobs, pages that
are done, and the page that fails.

**Proof sketch.** Induction on the pages. Each of the four sorts of events is a sum over the pages,
and up to order the sums are added page by page. -/
theorem events_ofPages_perm (n : Nat) (pages : List Page) :
    ((ofPages q job n pages).flatMap Step.events).Perm
      (((Page.intact pages).flatten.filterMap ListingEntry.unreadable?).map
          (fun x => .unreadable x.1 x.2) ++
        ((q.selected (Page.intact pages).flatten).flatMap (fun item => (job item).events) ++
          (reports q n (Page.intact pages) ++ losses n pages))) := by
  induction pages generalizing n with
  | nil => exact List.Perm.refl _
  | cons page pages ih =>
    cases hpage : page.content with
    | error fault =>
      rw [ofPages_cons_error q job n pages hpage, losses, Page.intact_cons_error pages hpage,
        Page.failure?_cons_error pages hpage]
      exact List.Perm.refl _
    | ok entries =>
      have hlosses : (losses n (page :: pages) : List (Event α)) = losses (n + 1) pages := by
        rw [losses, losses, Page.failure?_cons_ok pages hpage, Page.intact_cons_ok pages hpage,
          List.length_cons, Nat.add_right_comm, Nat.add_assoc]
      rw [ofPages_cons_ok q job n pages hpage, hlosses, Page.intact_cons_ok pages hpage]
      have h₁ := events_ofEntries_perm q job entries
      have h₂ := ih (n + 1)
      rw [← Multiset.coe_eq_coe] at h₁ h₂ ⊢
      simp only [List.flatMap_cons, List.flatMap_append, List.flatten_cons, List.filterMap_append,
        List.map_append, TagQuery.selected_append, reports, List.zipIdx_cons, List.map_cons,
        Step.events, List.nil_append, List.cons_append,
        ← Multiset.coe_add, ← Multiset.cons_coe] at h₁ h₂ ⊢
      rw [h₁, h₂]
      simp only [← Multiset.singleton_add]
      abel

/-- The events of a page's entries report no page as done. -/
lemma filter_events_ofEntries (entries : List ListingEntry) :
    ((ofEntries q job entries).flatMap Step.events).filter Event.isReport = [] := by
  rw [List.filter_eq_nil_iff]
  intro e he
  rw [(events_ofEntries_perm q job entries).mem_iff, List.mem_append] at he
  rcases he with he | he
  · obtain ⟨x, -, rfl⟩ := List.mem_map.mp he
    exact Bool.false_ne_true
  · obtain ⟨item, -, he⟩ := List.mem_flatMap.mp he
    rw [Event.isReport_of_isOfJob ((job item).isOfJob_of_mem_events he)]
    exact Bool.false_ne_true

/-- **The reports on pages** among the events of an agenda stand in the order of the pages. -/
theorem reports_ofPages (n : Nat) (pages : List Page) :
    ((ofPages q job n pages).flatMap Step.events).filter Event.isReport =
      reports q n (Page.intact pages) := by
  induction pages generalizing n with
  | nil => rfl
  | cons page pages ih =>
    cases hpage : page.content with
    | error fault =>
      rw [ofPages_cons_error q job n pages hpage, Page.intact_cons_error pages hpage]
      rfl
    | ok entries =>
      rw [ofPages_cons_ok q job n pages hpage, Page.intact_cons_ok pages hpage,
        List.flatMap_cons, List.flatMap_append, List.flatMap_cons, List.filter_append,
        List.filter_append, List.filter_append, filter_events_ofEntries, ih]
      rfl

end Agenda

/-! ### Agendas side by side -/

namespace Page

/-- The contents of pages decide which pages arrive and which one fails. -/
lemma intact_congr {ps ps' : List Page} (h : ps.map Page.content = ps'.map Page.content) :
    intact ps = intact ps' ∧ failure? ps = failure? ps' := by
  induction ps generalizing ps' with
  | nil =>
    obtain rfl := List.map_eq_nil_iff.mp h.symm
    exact ⟨rfl, rfl⟩
  | cons p ps ih =>
    obtain ⟨p', qs, rfl, hp, hqs⟩ := List.map_eq_cons_iff.mp h.symm
    obtain ⟨hintact, hfailure⟩ := ih hqs.symm
    cases hcontent : p.content with
    | error fault =>
      have hcontent' := hp.trans hcontent
      rw [intact_cons_error ps hcontent, intact_cons_error qs hcontent',
        failure?_cons_error ps hcontent, failure?_cons_error qs hcontent']
      exact ⟨rfl, rfl⟩
    | ok entries =>
      have hcontent' := hp.trans hcontent
      rw [intact_cons_ok ps hcontent, intact_cons_ok qs hcontent', failure?_cons_ok ps hcontent,
        failure?_cons_ok qs hcontent', hintact, hfailure]
      exact ⟨rfl, rfl⟩

/-- Pages with the same content that are awaited for related times. -/
def Related (delays : Nat → Nat → Prop) (page' page : Page) : Prop :=
  page'.content = page.content ∧ delays page'.delay page.delay

/-- Pages with the same contents side by side bring the same entries. -/
lemma intact_of_related {delays : Nat → Nat → Prop} {ps' ps : List Page}
    (h : List.Forall₂ (Related delays) ps' ps) : intact ps' = intact ps := by
  refine (intact_congr ?_).1
  rw [← List.forall₂_eq_eq_eq, List.forall₂_map_left_iff, List.forall₂_map_right_iff]
  exact h.imp fun _ _ hpage => hpage.1

end Page

section Related

variable {α β : Type} (delays : Nat → Nat → Prop) (jobs : Job β → Job α → Prop)

/-- **Steps of two agendas side by side**: pages are awaited for related times, related jobs are
started, and other steps are the same. -/
inductive Step.Related : Step β → Step α → Prop where
  | await {delay' delay : Nat} (h : delays delay' delay) : Related (.await delay') (.await delay)
  | start {job' : Job β} {job : Job α} (h : jobs job' job) : Related (.start job') (.start job)
  | reject (name : String) (fault : Fault) : Related (.reject name fault) (.reject name fault)
  | close (page listed selected : Nat) :
      Related (.close page listed selected) (.close page listed selected)
  | abandon (page : Nat) (fault : Fault) : Related (.abandon page fault) (.abandon page fault)

namespace Agenda

variable {delays jobs} (q : TagQuery) {job' : Item → Job β} {job : Item → Job α}

/-- The agendas of a page agree step by step if the jobs of its selected items are related. -/
lemma related_ofEntries {entries : List ListingEntry}
    (h : ∀ item ∈ q.selected entries, jobs (job' item) (job item)) :
    List.Forall₂ (Step.Related delays jobs) (ofEntries q job' entries)
      (ofEntries q job entries) := by
  induction entries with
  | nil => exact .nil
  | cons entry rest ih =>
    cases entry with
    | unreadable name fault =>
      rw [TagQuery.selected_cons_unreadable] at h
      exact .cons (.reject name fault) (ih h)
    | readable item =>
      rw [TagQuery.selected_cons_readable] at h
      rw [ofEntries_cons_readable, ofEntries_cons_readable]
      by_cases hsel : q.selects item.tags = true
      · rw [if_pos hsel] at h ⊢
        rw [if_pos hsel]
        obtain ⟨hitem, hrest⟩ := List.forall_mem_cons.mp h
        exact .cons (.start hitem) (ih hrest)
      · rw [if_neg hsel] at h ⊢
        rw [if_neg hsel]
        exact ih h

/-- **Agendas for the same entries agree step by step** if their pages are awaited for related times
and the jobs of the selected items are related. -/
theorem related_ofPages {pages' pages : List Page}
    (hpages : List.Forall₂ (Page.Related delays) pages' pages)
    (h : ∀ item ∈ q.selected (Page.intact pages).flatten, jobs (job' item) (job item)) (n : Nat) :
    List.Forall₂ (Step.Related delays jobs) (ofPages q job' n pages')
      (ofPages q job n pages) := by
  induction hpages generalizing n with
  | nil => exact .nil
  | @cons page' page pages' pages hpage _ ih =>
    obtain ⟨hcontent, hdelay⟩ := hpage
    cases hpage : page.content with
    | error fault =>
      rw [ofPages_cons_error q job' n pages' (hcontent.trans hpage),
        ofPages_cons_error q job n pages hpage]
      exact .cons (.await hdelay) (.cons (.abandon n fault) .nil)
    | ok entries =>
      rw [Page.intact_cons_ok pages hpage, List.flatten_cons, TagQuery.selected_append,
        List.forall_mem_append] at h
      rw [ofPages_cons_ok q job' n pages' (hcontent.trans hpage),
        ofPages_cons_ok q job n pages hpage]
      refine .cons (.await hdelay) (List.rel_append (related_ofEntries q h.1) ?_)
      exact .cons (.close _ _ _) (ih h.2 (n + 1))

end Agenda

end Related

end KeyIntake
