import KeyIntake.Proofs.Load.Measures
import KeyIntake.Proofs.Load.Report
/-!
# Harvest, counters and log agree

Whatever a load does is noted once, and its harvest, its counters and its log are read off the same
notes. So they tell the same story about any load that returns: how many faults there were and of
which kind, which items they belong to, how many items yielded values, and which pages were done.

## Main definitions

* `Load.closing` — the event with which a load is over.
* `Load.Accounted` — what counters and log say of a load.

## Main results

* `Load.trace_report_perm` — the trace of a load that returns.
* `Load.accounted_report` — the account of a load that returns.
-/

set_option relaxedAutoImplicit false
set_option autoImplicit false

namespace KeyIntake

namespace Load

variable {ι α : Type} [BEq α] (l : Load ι α)

/-! ### The trace of a load -/

/-- The event with which a load is over: its listing did not open, or everything is summed up. -/
def closing : Event α :=
  match l.listing with
  | .error fault => .unlisted fault
  | .ok pages =>
    .finished (Page.intact pages).length l.report.harvest.size l.report.harvest.faults

omit [BEq α] in
/-- A load whose listing does not open has no work. -/
lemma work_of_error {fault : Fault} (h : l.listing = .error fault) : l.work = [] := by
  have hpages := l.pages_of_error h
  simp [work, unreadable, produced, failed, selected, entries, hpages, Page.intact, Page.failure?,
    Agenda.reports, Agenda.losses]

omit [BEq α] in
/-- No work sums up the load. -/
lemma countP_isSummary_work : l.work.countP Event.isSummary = 0 := by
  rw [countP_work]
  simp [Event.isSummary]

variable {l} (hret : l.report.returned = true)

include hret

/-- **The trace of a load that returns** is its work, in some order, and one event to close it. -/
theorem trace_report_perm : l.report.trace.Perm (l.work ++ [l.closing]) := by
  cases hopen : l.listing with
  | error fault =>
    rw [report_of_error hopen, work_of_error l hopen, closing, hopen]
    exact List.Perm.refl _
  | ok pages =>
    have hret' : l.outcome.returned = true := by rwa [← returned_report]
    rw [trace_report_of_ok hopen hret, closing, hopen]
    exact (trace_outcome_perm hret').append_right _

/-- The item faults reported are those of the unreadable entries and of the failed items. -/
lemma itemFaults_report_perm : l.report.itemFaults.Perm (l.unreadable ++ l.failed) := by
  have hclosing : l.closing.itemFault? = none := by
    unfold closing
    split <;> rfl
  have hwork : (l.work ++ [l.closing]).filterMap Event.itemFault? = l.unreadable ++ l.failed := by
    rw [List.filterMap_append, List.filterMap_cons_none hclosing, List.filterMap_nil,
      List.append_nil]
    simp [work, Agenda.reports, Agenda.losses, Event.itemFault?, List.filterMap_map,
      Function.comp_def]
  rw [← hwork]
  exact (trace_report_perm hret).filterMap _

/-- As many ends of jobs with values are reported as selected items produce values. -/
lemma countP_isLoaded_report : l.report.trace.countP Event.isLoaded = l.produced.length := by
  have hclosing : l.closing.isLoaded = false := by
    unfold closing
    split <;> rfl
  rw [(trace_report_perm hret).countP_eq, List.countP_append, List.countP_singleton, hclosing,
    countP_work]
  simp [Event.isLoaded]

/-- The listing has at most one fault: it does not open, or a page of it fails. -/
lemma countP_isListingFault_report :
    l.report.trace.countP Event.isListingFault ≤ 1 := by
  rw [(trace_report_perm hret).countP_eq, List.countP_append]
  cases hopen : l.listing with
  | error fault =>
    rw [work_of_error l hopen, List.countP_nil, Nat.zero_add]
    exact List.countP_le_length
  | ok pages =>
    have hclosing : l.closing.isListingFault = false := by
      rw [closing, hopen]
      rfl
    rw [List.countP_singleton, hclosing, countP_work]
    simp [Event.isListingFault]

/-- The load is summed up iff its listing opens. -/
lemma countP_isSummary_report :
    l.report.trace.countP Event.isSummary = if l.listing.isOk then 1 else 0 := by
  have hclosing : l.closing.isSummary = l.listing.isOk := by
    unfold closing
    cases l.listing <;> rfl
  rw [(trace_report_perm hret).countP_eq, List.countP_append, countP_isSummary_work,
    List.countP_singleton, hclosing, Nat.zero_add]

/-- The reports on pages stand in the trace of a load in the order of the pages. -/
lemma filter_isReport_report {pages : List Page} (hopen : l.listing = .ok pages) :
    l.report.trace.filter Event.isReport =
      Agenda.reports l.query 0 (Page.intact pages) := by
  have hret' : l.outcome.returned = true := by rwa [← returned_report]
  rw [trace_report_of_ok hopen hret, List.filter_append, reports_outcome hret', pages_of_ok l hopen]
  exact List.append_nil _

/-- The trace of a load whose listing opens is summed up once, at its end. -/
lemma filter_isSummary_report {pages : List Page} (hopen : l.listing = .ok pages) :
    l.report.trace.filter Event.isSummary = [l.closing] ∧
      l.report.trace.getLast? = some l.closing := by
  have hret' : l.outcome.returned = true := by rwa [← returned_report]
  have hcount : l.outcome.pool.trace.countP Event.isSummary = 0 := by
    rw [(trace_outcome_perm hret').countP_eq, countP_isSummary_work]
  have hnone : l.outcome.pool.trace.filter Event.isSummary = [] :=
    List.filter_eq_nil_iff.mpr (List.countP_eq_zero.mp hcount)
  rw [trace_report_of_ok hopen hret, closing, hopen, List.filter_append, hnone]
  exact ⟨rfl, List.getLast?_concat⟩

omit hret

/-! ### The account of a load -/

variable (l)

/-- What the log says of the pages of a load with a report: `summary` is the record that sums up the
load, and `selected` are the numbers of items selected on each page. -/
structure PagesAccounted (r : Report α) (summary : LogRecord) (selected : List Nat) : Prop where
  /-- The summary is the last record and the only one of its level. -/
  last : r.records.getLast? = some summary ∧ r.records.filter (·.level == .info) = [summary]
  /-- It tells the number of pages and the size and the faults of the harvest. -/
  told : summary.field? "pages" = some (.number selected.length) ∧
    summary.field? "loaded" = some (.number r.harvest.size) ∧
    summary.field? "failed" = some (.number r.harvest.faults)
  /-- The pages are reported in order. -/
  numbers : (r.records.filter (·.message == "Dispatched vault page")).map (·.field? "page") =
    (List.range selected.length).map fun n => some (.number n)
  /-- Each report tells how many items were selected on the page. -/
  selections : (r.records.filter (·.message == "Dispatched vault page")).map (·.field? "selected") =
    selected.map fun n => some (.number n)
  /-- Together these are the items that produced values and those that failed. -/
  sum : r.counter (.itemsLoaded l.kind) + l.failed.length = selected.sum

/-- **What harvest, counters and log say of a load** with a report. -/
structure Accounted (r : Report α) : Prop where
  /-- Each fault is counted once, by its kind or as a fault of the listing. -/
  faults_eq_counters : r.harvest.faults =
    (Fault.Kind.all.map fun reason => r.counter (.itemsFailed l.kind reason)).sum +
      r.counter (.listingFailures l.kind)
  /-- Each fault is logged once, as a warning or as an error. -/
  faults_eq_records : r.harvest.faults =
    r.records.countP (·.level == .warn) + r.records.countP (·.level == .error)
  /-- There is one warning for each unreadable entry and each item that failed, and it names the
  item. -/
  warned : ((r.records.filter (·.level == .warn)).map (·.field? "item")).Perm
    ((l.unreadable ++ l.failed).map fun x => some (.text x.1))
  /-- There is at most one error. -/
  errors_le : r.records.countP (·.level == .error) ≤ 1
  /-- The faults of each kind are counted. -/
  reasons : ∀ reason, r.counter (.itemsFailed l.kind reason) =
    (l.unreadable ++ l.failed).countP (·.2.kind == reason)
  /-- The items that produced values are counted, also those that produced none. -/
  loaded : r.counter (.itemsLoaded l.kind) = l.produced.length
  /-- If the listing opens, the pages and what was selected on them are told. -/
  pages : l.listing.isOk = true → ∃ summary selected, l.PagesAccounted r summary selected
  /-- The duration is recorded once if the listing opens. -/
  durations : r.counter (.loadDurations l.kind) = if l.listing.isOk then 1 else 0
  /-- No counter of another kind is moved. -/
  others : ∀ c : Counter, c.kind ≠ l.kind → r.counter c = 0
  /-- Nothing else is noted: one event for each entry that is unreadable or selected, for each page
  up to the one that fails, and for the end. -/
  trace : r.trace.Perm (l.work ++ [l.closing])

include hret

/-- The pages of a load that returns are told in order, with what was selected on them. -/
lemma pagesAccounted_report {pages : List Page} (hopen : l.listing = .ok pages) :
    l.PagesAccounted l.report (l.closing.record l.kind)
      ((Page.intact pages).map fun entries => (l.query.selected entries).length) := by
  have hstuck := l.returned_outcome_iff.mp (by rwa [← returned_report])
  obtain ⟨hsummary, hlast⟩ := filter_isSummary_report hret hopen
  have hclosing : l.closing = .finished (Page.intact pages).length l.report.harvest.size
      l.report.harvest.faults := by rw [closing, hopen]
  have hreports := l.report.filter_records (f := Event.isReport)
    (p := fun x => x.message == "Dispatched vault page") (Event.message_record l.report.kind)
  rw [filter_isReport_report hret hopen] at hreports
  refine {
    last := ⟨?last, ?only⟩
    told := ⟨?pages, ?values, ?faults⟩
    numbers := ?numbers
    selections := ?selections
    sum := ?sum }
  case last =>
    rw [Report.records, List.getLast?_map, hlast, kind_report]
    rfl
  case only =>
    rw [l.report.filter_records (Event.level_record_info l.report.kind), hsummary, kind_report]
    rfl
  case pages =>
    rw [hclosing, List.length_map]
    rfl
  case values =>
    rw [hclosing]
    rfl
  case faults =>
    rw [hclosing]
    rfl
  case numbers =>
    rw [hreports, List.length_map, List.range_eq_range',
      ← List.zipIdx_map_snd 0 (Page.intact pages), Agenda.reports, List.map_map, List.map_map,
      List.map_map]
    rfl
  case selections =>
    rw [hreports, Agenda.reports, List.map_map, List.map_map, List.map_map]
    nth_rewrite 2 [← List.zipIdx_map_fst 0 (Page.intact pages)]
    rw [List.map_map]
    rfl
  case sum =>
    rw [← kind_report, Report.counter_itemsLoaded, countP_isLoaded_report hret,
      length_produced_add_length_failed l hstuck, selected, entries, pages_of_ok l hopen,
      TagQuery.length_selected_flatten]

/-- **Harvest, counters and log of a load that returns agree.**

**Proof sketch.** Each of them is read off the trace, and the trace is the work of the load with one
event that closes it. -/
theorem accounted_report : l.Accounted l.report where
  faults_eq_counters := by
    rw [← kind_report]
    exact l.report.faults_eq_counters
  faults_eq_records := l.report.faults_eq_records
  warned := by
    rw [l.report.items_warned]
    exact (itemFaults_report_perm hret).map _
  errors_le := by
    rw [l.report.countP_records (Event.level_record_error l.report.kind)]
    exact countP_isListingFault_report hret
  reasons reason := by
    rw [← kind_report, Report.counter_itemsFailed]
    exact (itemFaults_report_perm hret).countP_eq _
  loaded := by
    rw [← kind_report, Report.counter_itemsLoaded]
    exact countP_isLoaded_report hret
  pages hok := by
    cases hopen : l.listing with
    | error fault =>
      rw [hopen] at hok
      exact absurd hok Bool.false_ne_true
    | ok pages => exact ⟨_, _, pagesAccounted_report l hret hopen⟩
  durations := by
    rw [← kind_report, Report.counter_loadDurations]
    exact countP_isSummary_report hret
  others c hc := by
    rw [← kind_report] at hc
    exact l.report.counter_of_kind_ne hc
  trace := trace_report_perm hret

omit hret in
/-- The load with every kind of trouble has its five faults told in four warnings and one error. -/
theorem accounted_troubled :
    troubled.Accounted troubled.report ∧
      troubled.report.records.countP (·.level == .warn) +
        troubled.report.records.countP (·.level == .error) = 5 ∧
      troubled.report.counter (.itemsLoaded .secret) = 2 := by
  have h := accounted_report troubled (by decide)
  exact ⟨h, h.faults_eq_records.symm.trans (by decide), h.loaded.trans (by decide)⟩

end Load

end KeyIntake
