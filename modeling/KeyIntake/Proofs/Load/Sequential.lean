import KeyIntake.Proofs.Load.Report
import KeyIntake.Proofs.Load.Trace
/-!
# A load brings in what a plain loop would

The reference is a loop without any concurrency: go through the entries of the pages before the
first failing one, in listing order, count the unreadable ones, and for each selected item gather
what it yields or count a fault. A load that returns brings in the same, whatever its limits, its
page boundaries and the delays of its pages and fetches.

## Main definitions

* `Load.sequential` — the harvest of the loop.

## Main results

* `Load.foldl_take` — what the loop gathers.
* `Load.harvest_beq_sequential` — the harvest of a load that returns is that of the loop.
-/

set_option relaxedAutoImplicit false
set_option autoImplicit false

namespace KeyIntake

namespace Load

variable {ι α : Type} [BEq α] (l : Load ι α)

/-! ### The loop -/

/-- What an entry adds to a harvest if it is dealt with on its own. -/
def take (h : Harvest α) : ListingEntry → Harvest α
  | .unreadable _ _ => h.miss
  | .readable item =>
    if l.query.selects item.tags then
      match l.yield? item with
      | some values => h.gather values
      | none => h.miss
    else h

/-- **The sequential reference**: deal with the entries one after the other, then count the page
that fails, if there is one. -/
def sequential : Harvest α :=
  let gathered := l.entries.foldl l.take .empty
  if l.lostPage?.isSome then gathered.miss else gathered

/-- The selected items that yield nothing count as faults. -/
def misses : Nat := l.selected.countP fun item => (l.yield? item).isNone

/-- The values that the selected items yield, in listing order. -/
def yields : List α := l.selected.flatMap fun item => (l.yield? item).getD []

/-- The loop adds the values of the selected items to what was gathered before, and to the faults
the unreadable entries and the selected items that yield nothing.

**Proof sketch.** Induction on the entries, the harvest so far being arbitrary. -/
lemma foldl_take (entries : List ListingEntry) (h : Harvest α) :
    entries.foldl l.take h =
      ⟨h.values.insertAll ((l.query.selected entries).flatMap fun item => (l.yield? item).getD []),
        h.faults + ((entries.filterMap ListingEntry.unreadable?).length +
          (l.query.selected entries).countP fun item => (l.yield? item).isNone)⟩ := by
  induction entries generalizing h with
  | nil => rfl
  | cons entry rest ih =>
    rw [List.foldl_cons, ih]
    cases entry with
    | unreadable name fault =>
      have hu : (ListingEntry.unreadable name fault :: rest).filterMap ListingEntry.unreadable? =
          (name, fault) :: rest.filterMap ListingEntry.unreadable? := rfl
      rw [TagQuery.selected_cons_unreadable, hu]
      simp only [take, Harvest.miss, List.length_cons]
      congr 1
      omega
    | readable item =>
      rw [TagQuery.selected_cons_readable, List.filterMap_cons_none rfl]
      by_cases hsel : l.query.selects item.tags = true
      · simp only [take, if_pos hsel, List.flatMap_cons, List.countP_cons]
        cases hyield : l.yield? item with
        | none =>
          simp only [Harvest.miss, Option.getD_none, List.nil_append, Option.isNone_none,
            ↓reduceIte]
          congr 1
          omega
        | some values =>
          simp only [Harvest.gather, Option.getD_some, Option.isNone_some, Bool.false_eq_true,
            ↓reduceIte, Nat.add_zero, Distinct.insertAll_append]
      · simp only [take, if_neg hsel]

/-- The values of the loop are those that the selected items yield, each kept once. -/
lemma values_sequential : l.sequential.values = Distinct.ofList l.yields := by
  unfold sequential
  rw [foldl_take]
  dsimp only
  split <;> rfl

/-- The faults of the loop: unreadable entries, selected items that yield nothing, and the page that
fails. -/
lemma faults_sequential :
    l.sequential.faults =
      l.unreadable.length + l.misses + if l.lostPage?.isSome then 1 else 0 := by
  unfold sequential
  rw [foldl_take]
  dsimp only
  split
  · exact congrArg (· + 1) (Nat.zero_add _)
  · exact Nat.zero_add _

/-! ### The work of a load -/

omit [BEq α] in
/-- The values of the items that yield some, one item after the other. -/
lemma flatMap_produced : l.produced.flatMap Prod.snd = l.yields := by
  unfold produced yields
  induction l.selected with
  | nil => rfl
  | cons item rest ih =>
    rw [List.flatMap_cons, ← ih]
    cases hyield : l.yield? item with
    | none => rw [List.filterMap_cons_none (by rw [hyield]; rfl)]; rfl
    | some values => rw [List.filterMap_cons_some (by rw [hyield]; rfl)]; rfl

omit [BEq α] in
/-- The values among the events of a load are those that its selected items yield. -/
lemma flatMap_yielded_work : l.work.flatMap Event.yielded = l.yields := by
  have hnil {β : Type} (xs : List β) : xs.flatMap (fun _ => ([] : List α)) = [] :=
    List.flatMap_eq_nil_iff.mpr fun _ _ => rfl
  rw [← flatMap_produced]
  simp only [work, Agenda.reports, Agenda.losses, List.flatMap_append, List.flatMap_map,
    Event.yielded, hnil, List.nil_append, List.append_nil]

omit [BEq α] in
/-- The faults among the events of a load: unreadable entries, items with a fault, and the page that
fails. -/
lemma countP_isFault_work :
    l.work.countP Event.isFault =
      l.unreadable.length + l.failed.length + if l.lostPage?.isSome then 1 else 0 := by
  have hlost : l.lostPage?.toList.length = if l.lostPage?.isSome then 1 else 0 := by
    cases l.lostPage? <;> rfl
  rw [countP_work, ← hlost]
  simp only [Event.isFault, List.countP_true, List.countP_false, Function.const_apply]
  omega

/-! ### Loads against the loop -/

section Comparison

variable [EquivBEq α]

/-- The loop of one load is that of another if the same entries are offered, the same of them are
selected and these yield the same. -/
lemma sequential_beq {κ : Type} (m : Load κ α) (hentries : m.entries = l.entries)
    (hquery : m.query = l.query) (hlost : m.lostPage?.isSome = l.lostPage?.isSome)
    (hyield : ∀ item ∈ l.selected, m.yield? item = l.yield? item) :
    (l.sequential == m.sequential) = true := by
  have hselected : m.selected = l.selected := by rw [selected, selected, hquery, hentries]
  have hunreadable : m.unreadable = l.unreadable := by rw [unreadable, unreadable, hentries]
  have hmisses : m.misses = l.misses := by
    rw [misses, misses, hselected]
    exact List.countP_congr fun item hitem => by rw [hyield item hitem]
  have hyields : m.yields = l.yields := by
    rw [yields, yields, hselected]
    exact List.flatMap_congr fun item hitem => by rw [hyield item hitem]
  rw [Harvest.beq_iff, values_sequential, values_sequential, faults_sequential, faults_sequential,
    hunreadable, hmisses, hyields, hlost]
  exact ⟨rfl, fun _ => rfl⟩

/-- A value is brought in by the loop iff it equals one that a selected item yields. -/
lemma contains_sequential (a : α) :
    l.sequential.values.contains a = true ↔
      ∃ item ∈ l.selected, ∃ values, l.yield? item = some values ∧
        ∃ v ∈ values, (v == a) = true := by
  rw [values_sequential, Distinct.contains_ofList, List.any_eq_true, yields]
  constructor
  · rintro ⟨v, hv, hva⟩
    obtain ⟨item, hitem, hv⟩ := List.mem_flatMap.mp hv
    cases hyield : l.yield? item with
    | none =>
      rw [hyield] at hv
      exact absurd hv List.not_mem_nil
    | some values =>
      rw [hyield] at hv
      exact ⟨item, hitem, values, hyield, v, hv, hva⟩
  · rintro ⟨item, hitem, values, hyield, v, hv, hva⟩
    refine ⟨v, List.mem_flatMap.mpr ⟨item, hitem, ?_⟩, hva⟩
    rw [hyield]
    exact hv

/-- The harvest of the trace of an agenda that comes to an end is that of the loop. -/
lemma harvest_outcome_beq (h : l.outcome.returned = true) :
    (Event.harvest l.outcome.pool.trace == l.sequential) = true := by
  have hfailed : l.failed.length = l.misses := l.length_failed (l.returned_outcome_iff.mp h)
  obtain ⟨hfaults, hvalues⟩ := Harvest.beq_iff _ _ |>.mp
    (Event.harvest_beq_of_perm (trace_outcome_perm h))
  rw [Harvest.beq_iff, hfaults]
  constructor
  · rw [Event.faults_harvest, countP_isFault_work, hfailed, faults_sequential]
  · intro a
    rw [hvalues, Event.values_harvest, flatMap_yielded_work, values_sequential]

variable {l}

/-- **A load brings in what the loop does**, if it returns: whatever its limits and delays,

* its harvest agrees with that of the loop;
* an item yields values iff its fetch ends with a value, no timeout being shorter than its delay,
  and the mapping yields these values rather than fail or panic;
* the harvest contains a value iff an equal one is yielded by a selected item;
* its faults are the unreadable entries, the selected items that yield nothing, and the page that
  fails if one does;
* another load that returns has an equal harvest if it offers the same entries, selects the same and
  has them yield the same, so limits, delays and page boundaries do not matter.

**Proof sketch.** The trace of the load is a permutation of its work, and the order of events does
not matter for a harvest. What the work adds to a harvest is what the loop adds. -/
theorem harvest_beq_sequential {pages : List Page} (hopen : l.listing = .ok pages)
    (hret : l.report.returned = true) :
    (l.report.harvest == l.sequential) = true ∧
      (∀ item values, l.yield? item = some values ↔
        ∃ delay input, l.fetch item = .ends delay (.value input) ∧
          (∀ limit ∈ l.limits.timeoutMillis, delay ≤ limit) ∧
          l.mapping item.name input = .value values) ∧
      (∀ a, l.report.harvest.values.contains a = true ↔
        ∃ item ∈ l.selected, ∃ values, l.yield? item = some values ∧
          ∃ v ∈ values, (v == a) = true) ∧
      l.report.harvest.faults =
        l.unreadable.length + (l.selected.countP fun item => (l.yield? item).isNone) +
          (if l.lostPage?.isSome then 1 else 0) ∧
      ∀ {κ : Type} (m : Load κ α) {pages' : List Page}, m.listing = .ok pages' →
        m.report.returned = true → m.entries = l.entries → m.query = l.query →
        m.lostPage?.isSome = l.lostPage?.isSome →
        (∀ item ∈ l.selected, m.yield? item = l.yield? item) →
        (l.report.harvest == m.report.harvest) = true := by
  have hl := harvest_outcome_beq l (by rwa [← returned_report])
  rw [← harvest_report_of_ok hopen] at hl
  obtain ⟨hfaults, hvalues⟩ := Harvest.beq_iff _ _ |>.mp hl
  refine ⟨hl, fun item values => yield?_eq_some_iff, fun a => ?_, ?_, ?_⟩
  · rw [hvalues]
    exact l.contains_sequential a
  · rw [hfaults, faults_sequential, misses]
  · intro κ m pages' hopen' hret' hentries hquery hlost hyield
    have hm := harvest_outcome_beq m (by rwa [← returned_report])
    rw [← harvest_report_of_ok hopen'] at hm
    obtain ⟨hfaults', hvalues'⟩ := Harvest.beq_iff _ _ |>.mp hm
    obtain ⟨hfaults'', hvalues''⟩ :=
      Harvest.beq_iff _ _ |>.mp (sequential_beq l m hentries hquery hlost hyield)
    rw [Harvest.beq_iff]
    exact ⟨by rw [hfaults, hfaults'', hfaults'],
      fun a => by rw [hvalues, hvalues'', hvalues']⟩

/-- The load with every kind of trouble brings in two values and counts five faults. -/
theorem harvest_troubled :
    (troubled.report.harvest == troubled.sequential) = true ∧
      troubled.report.harvest.faults = 5 := by
  have h := harvest_beq_sequential (l := troubled) rfl (by decide)
  exact ⟨h.1, h.2.2.2.1.trans (by decide)⟩

end Comparison

end Load

end KeyIntake
