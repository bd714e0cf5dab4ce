import KeyIntake.Proofs.Load.Accounting
import KeyIntake.Proofs.Load.Dispatch
import KeyIntake.Proofs.Load.Sequential
/-!
# What a load that returns has gathered

Whether or not its listing opens, a load that returns has gathered what its selected items yield,
and its faults are the unreadable entries, the selected items that yield nothing, and what went
wrong with the listing. So what one item does to the harvest can be told from that item alone.

## Main definitions

* `Load.faults` — the faults of a load that returns.
* `Load.withPages` — a load with another listing.

## Main results

* `Load.faults_report`, `Load.exists_kept_iff` — the harvest of a load that returns.
* `Load.leave_out` — an item that yields nothing has one fault and no other influence.
-/

set_option relaxedAutoImplicit false
set_option autoImplicit false

namespace KeyIntake

namespace Load

variable {ι α : Type} (l : Load ι α)

/-! ### Faults -/

/-- The faults of a load that returns: unreadable entries, whether or not their items would be
selected, selected items that yield nothing, the page that fails, and a listing that does not
open. -/
def faults : Nat :=
  l.unreadable.length + (l.selected.countP fun item => (l.yield? item).isNone) +
    ((if l.lostPage?.isSome then 1 else 0) + if l.listing.isOk then 0 else 1)

/-- The load with a listing of other pages. -/
def withPages (pages : List Page) : Load ι α := { l with listing := .ok pages }

variable {l}

/-- Something is found among the values that the selected items yield iff it is found among those of
one of them. -/
lemma exists_yields_iff {p : α → Prop} :
    (∃ v ∈ l.yields, p v) ↔
      ∃ item ∈ l.selected, ∃ values, l.yield? item = some values ∧ ∃ v ∈ values, p v := by
  constructor
  · rintro ⟨v, hv, hp⟩
    obtain ⟨item, hitem, hv⟩ := List.mem_flatMap.mp hv
    cases hyield : l.yield? item with
    | none =>
      rw [hyield] at hv
      exact absurd hv List.not_mem_nil
    | some values =>
      rw [hyield] at hv
      exact ⟨item, hitem, values, hyield, v, hv, hp⟩
  · rintro ⟨item, hitem, values, hyield, v, hv, hp⟩
    refine ⟨v, List.mem_flatMap.mpr ⟨item, hitem, ?_⟩, hp⟩
    rw [hyield]
    exact hv

/-- **Leaving out an item that yields nothing** leaves out one fault and no values.

**Proof sketch.** The selected items are the same but for this one. -/
theorem leave_out {pages : List Page} {before after : List ListingEntry} {item : Item}
    (hopen : l.listing.isOk = true) (hentries : l.entries = before ++ .readable item :: after)
    (hpages : (l.withPages pages).entries = before ++ after)
    (hlost : (l.withPages pages).lostPage?.isSome = l.lostPage?.isSome)
    (hselects : l.query.selects item.tags = true) (hyield : l.yield? item = none) :
    l.faults = (l.withPages pages).faults + 1 ∧ l.yields = (l.withPages pages).yields ∧
      (l.withPages pages).selected ⊆ l.selected := by
  have hselected : l.selected =
      l.query.selected before ++ item :: l.query.selected after := by
    rw [selected, hentries, TagQuery.selected_append, TagQuery.selected_cons_readable,
      if_pos hselects]
  have hselected' : (l.withPages pages).selected =
      l.query.selected before ++ l.query.selected after := by
    rw [selected, hpages]
    exact TagQuery.selected_append l.query before after
  have hunreadable : l.unreadable = (l.withPages pages).unreadable := by
    rw [unreadable, unreadable, hentries, hpages, List.filterMap_append, List.filterMap_append,
      List.filterMap_cons_none rfl]
  have hyield' : (l.withPages pages).yield? = l.yield? := rfl
  have hopen' : (l.withPages pages).listing.isOk = true := rfl
  refine ⟨?_, ?_, ?_⟩
  · rw [faults, faults, hunreadable, hselected, hselected', hlost, hopen, hopen', hyield',
      List.countP_append, List.countP_append, List.countP_cons_of_pos (by rw [hyield]; rfl)]
    omega
  · rw [yields, yields, hselected, hselected', hyield', List.flatMap_append, List.flatMap_append,
      List.flatMap_cons, hyield]
    rfl
  · rw [hselected, hselected']
    exact (List.sublist_cons_self item _).append_left _ |>.subset

variable [BEq α] (hret : l.report.returned = true)

include hret

/-- A load that selects fewer items returns if the load returns. -/
lemma returned_withPages {pages : List Page} (h : (l.withPages pages).selected ⊆ l.selected) :
    (l.withPages pages).report.returned = true :=
  (l.withPages pages).returned_report_iff.mpr fun item hitem =>
    l.returned_report_iff.mp hret item (h hitem)

/-- **The faults of a load that returns** are counted in its harvest. -/
theorem faults_report : l.report.harvest.faults = l.faults := by
  have hfailed := l.length_failed (l.returned_outcome_iff.mp (by rwa [← returned_report]))
  have hclosing : [l.closing].countP Event.isFault = if l.listing.isOk then 0 else 1 := by
    unfold closing
    cases l.listing <;> rfl
  rw [Report.harvest, Event.faults_harvest, (trace_report_perm hret).countP_eq,
    List.countP_append, countP_isFault_work, hclosing, hfailed, faults, Nat.add_assoc]

variable [EquivBEq α]

/-- A load that returns contains what equals a value that a selected item yields. -/
theorem contains_report (a : α) :
    l.report.harvest.values.contains a = l.yields.any (· == a) := by
  have hclosing : [l.closing].flatMap Event.yielded = [] := by
    unfold closing
    cases l.listing <;> rfl
  rw [Report.harvest, Event.contains_harvest,
    ((trace_report_perm hret).flatMap_right Event.yielded).any_eq, List.flatMap_append,
    flatMap_yielded_work, hclosing, List.append_nil]

/-- **What is kept by a load that returns**: something that equality respects is found among the
values that are kept iff it is found among those that the selected items yield. -/
theorem exists_kept_iff {β : Type} {g : α → β} (hg : ∀ {a b : α}, (a == b) = true ↔ g a = g b)
    {c : β} :
    (∃ v ∈ l.report.harvest.values.values, g v = c) ↔ ∃ v ∈ l.yields, g v = c := by
  constructor
  · rintro ⟨v, hv, rfl⟩
    have hkept : l.report.harvest.values.contains v = true :=
      List.any_eq_true.mpr ⟨v, hv, BEq.rfl⟩
    rw [contains_report hret] at hkept
    obtain ⟨v', hv', heq⟩ := List.any_eq_true.mp hkept
    exact ⟨v', hv', hg.mp heq⟩
  · rintro ⟨v, hv, rfl⟩
    have hkept : l.yields.any (· == v) = true := List.any_eq_true.mpr ⟨v, hv, BEq.rfl⟩
    rw [← contains_report hret] at hkept
    obtain ⟨v', hv', heq⟩ := List.any_eq_true.mp hkept
    exact ⟨v', hv', hg.mp heq⟩

end Load

end KeyIntake
