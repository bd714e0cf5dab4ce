import KeyIntake.Proofs.Load.Basic
import KeyIntake.Proofs.Load.Conservation
import KeyIntake.Proofs.Load.Progress
/-!
# What a report tells

The report of a load is read off the run of its agenda. Here the facts about runs are brought to
reports: which items were started, when the load returns, and which events are in its trace.

## Main definitions

* `Load.outcome` — the outcome of the agenda of a load.
* `Load.work` — the events of a load that returns, sorted, without the one that sums it up.

## Main results

* `Load.returned_outcome_iff`, `Load.starts_outcome` — how far the agenda is carried out.
* `Load.trace_outcome_perm`, `Load.reports_outcome` — which events are noted on the way.
* `Load.returned_report`, `Load.starts_report`, `Load.trace_report_of_ok` — the report of a load.
-/

set_option relaxedAutoImplicit false
set_option autoImplicit false

namespace KeyIntake

/-- The pages that a trace reports as done are its reports. -/
lemma Event.pagesDone_eq_countP {α : Type} (trace : List (Event α)) :
    Event.pagesDone trace = trace.countP Event.isReport := by
  unfold pagesDone
  congr 1

namespace Load

variable {ι α : Type} (l : Load ι α)

/-! ### The run behind a load -/

/-- The outcome of the agenda of a load. -/
def outcome : Outcome α :=
  Pool.run l.limits.workers {} (Agenda.ofPages l.query l.job 0 l.pages)

/-- A listing that does not open offers nothing. -/
lemma pages_of_error {fault : Fault} (h : l.listing = .error fault) : l.pages = [] := by
  simp only [pages, h]

/-- A listing that opens offers its pages. -/
lemma pages_of_ok {pages : List Page} (h : l.listing = .ok pages) : l.pages = pages := by
  simp only [Load.pages, h]

/-- The jobs of the agenda of a load are those of its selected items. -/
lemma jobs_agenda :
    (Agenda.ofPages l.query l.job 0 l.pages).filterMap Step.job? = l.selected.map l.job :=
  Agenda.jobs_ofPages l.query l.job 0 l.pages

/-- The agenda comes to an end iff no selected item is stuck. -/
lemma returned_outcome_iff :
    l.outcome.returned = true ↔ ∀ item ∈ l.selected, l.isStuck item = false := by
  rw [outcome, Pool.returned_run_iff _ _ _ l.limits.workers_pos (Nat.zero_le _), jobs_agenda,
    List.forall_mem_map]
  simp only [isStuck_job, true_and]

/-- The jobs started are those of the selected items, cut just after the stuck item that takes the
last worker. -/
lemma starts_outcome :
    l.outcome.pool.starts.map Start.item = cutAfter l.isStuck l.limits.workers l.selected := by
  have hjob : (fun item => (l.job item).isStuck) = l.isStuck := funext l.isStuck_job
  rw [outcome, Pool.starts_run _ _ _ (Nat.zero_le _), jobs_agenda, cutAfter_map, hjob,
    List.map_map]
  exact List.map_id _

/-- The events of a load that returns, sorted by what they report: unreadable entries, items that
yield values, items with a fault, pages that are done and the page that fails. -/
def work : List (Event α) :=
  l.unreadable.map (fun x => .unreadable x.1 x.2) ++
    (l.produced.map (fun x => .loaded x.1 x.2) ++ l.failed.map (fun x => .lost x.1 x.2) ++
      (Agenda.reports l.query 0 (Page.intact l.pages) ++ Agenda.losses 0 l.pages))

/-- The events of the work of a load are counted sort by sort. -/
lemma countP_work (f : Event α → Bool) :
    l.work.countP f =
      l.unreadable.countP (fun x => f (.unreadable x.1 x.2)) +
        (l.produced.countP (fun x => f (.loaded x.1 x.2)) +
            l.failed.countP (fun x => f (.lost x.1 x.2)) +
          ((Page.intact l.pages).zipIdx.countP
              (fun x => f (.pageDone x.2 x.1.length (l.query.selected x.1).length)) +
            l.lostPage?.toList.countP
              (fun fault => f (.pageLost (0 + (Page.intact l.pages).length) fault)))) := by
  simp only [work, lostPage?, Agenda.reports, Agenda.losses, List.countP_append, List.countP_map]
  rfl

variable {l}

/-- **The trace of an agenda that comes to an end** is the work of the load, in some order.

**Proof sketch.** Events are conserved, so the trace is that of the agenda. No selected item is
stuck, so each of them has exactly one event there. -/
theorem trace_outcome_perm (h : l.outcome.returned = true) :
    l.outcome.pool.trace.Perm l.work := by
  refine (Pool.trace_run_perm _ _ _ h).trans ?_
  refine (Agenda.events_ofPages_perm l.query l.job 0 l.pages).trans ?_
  refine List.Perm.append_left _ (List.Perm.append_right _ ?_)
  exact l.events_jobs_perm (l.returned_outcome_iff.mp h)

/-- The reports on pages in such a trace stand in the order of the pages. -/
lemma reports_outcome (h : l.outcome.returned = true) :
    l.outcome.pool.trace.filter Event.isReport =
      Agenda.reports l.query 0 (Page.intact l.pages) := by
  rw [outcome, Pool.filter_trace_run _ (fun _ => Event.isReport_of_isOfJob) _ _ h,
    Agenda.reports_ofPages]
  rfl

/-- As many pages are reported as arrive before the first one that fails. -/
lemma pagesDone_outcome (h : l.outcome.returned = true) :
    Event.pagesDone l.outcome.pool.trace = (Page.intact l.pages).length := by
  rw [Event.pagesDone_eq_countP, List.countP_eq_length_filter, reports_outcome h,
    Agenda.reports, List.length_map, List.length_zipIdx]

/-! ### Reports -/

section Report

variable [BEq α]

/-- A load whose listing does not open reports that and nothing else. -/
lemma report_of_error {fault : Fault} (h : l.listing = .error fault) :
    l.report = .unlisted l.kind fault := by
  simp only [report, h, Report.ofListing]

/-- A load whose listing opens reports the outcome of its agenda. -/
lemma report_of_ok {pages : List Page} (h : l.listing = .ok pages) :
    l.report = .ofOutcome l.kind l.outcome := by
  simp only [report, outcome, Load.pages, h, Report.ofListing]

variable (l)

/-- A load returns iff its agenda comes to an end; if the listing does not open there is none. -/
lemma returned_report : l.report.returned = l.outcome.returned := by
  cases h : l.listing with
  | error fault =>
    rw [report_of_error h, outcome, pages_of_error l h]
    rfl
  | ok pages =>
    rw [report_of_ok h]
    simp only [Report.returned, Report.ofOutcome]
    cases l.outcome.returned <;> rfl

/-- The starts reported are those of the agenda. -/
lemma starts_report : l.report.starts = l.outcome.pool.starts := by
  cases h : l.listing with
  | error fault =>
    rw [report_of_error h, outcome, pages_of_error l h]
    rfl
  | ok pages =>
    rw [report_of_ok h]
    rfl

/-- The peak reported is that of the agenda. -/
lemma peak_report : l.report.peak = l.outcome.pool.peak := by
  cases h : l.listing with
  | error fault =>
    rw [report_of_error h, outcome, pages_of_error l h]
    rfl
  | ok pages =>
    rw [report_of_ok h]
    rfl

/-- A load reports its kind. -/
lemma kind_report : l.report.kind = l.kind := by
  cases h : l.listing with
  | error fault =>
    rw [report_of_error h]
    rfl
  | ok pages =>
    rw [report_of_ok h]
    rfl

variable {l}

/-- **The harvest of a load that returns** is that of its trace; summing up adds nothing. -/
lemma harvest_report_of_ok {pages : List Page} (h : l.listing = .ok pages) :
    l.report.harvest = Event.harvest l.outcome.pool.trace := by
  rw [report_of_ok h, Report.harvest, Report.ofOutcome]
  dsimp only
  split
  · exact List.foldl_concat _ _ _ _
  · rfl

/-- The trace of a load that returns ends with an event that sums it up. -/
lemma trace_report_of_ok {pages : List Page} (h : l.listing = .ok pages)
    (hret : l.report.returned = true) :
    l.report.trace = l.outcome.pool.trace ++
      [.finished (Page.intact pages).length l.report.harvest.size l.report.harvest.faults] := by
  rw [returned_report] at hret
  rw [harvest_report_of_ok h, report_of_ok h, Report.ofOutcome]
  dsimp only
  rw [if_pos hret, pagesDone_outcome hret, pages_of_ok l h]

end Report

end Load

end KeyIntake
