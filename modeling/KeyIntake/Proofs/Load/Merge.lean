import KeyIntake.Proofs.Load.Gathered
/-!
# Loading in parts

What a load brings in depends on what its pages contain, not on how the entries are spread over
them, on how long anything takes, or on how many workers there are, as long as the same fetches end
in time. So a listing may be loaded in parts: what the whole brings in is what the parts bring in,
merged, unless a page of the first part fails, which ends the listing there.

All this is up to the equality of harvests. It makes harvests a commutative monoid under merging,
although of equal values those of the first harvest are kept.

## Main definitions

* `Load.Lists` — the contents of the pages that a load lists.
* `Load.arrival?` — how the fetch of an item ends, if it does so in time.
* `Load.Agrees` — a load that treats the items it selects as another load does.

## Main results

* `Harvest.contains_merge`, `Harvest.find?_merge` — what a merged harvest contains and keeps.
* `Load.harvest_beq_merge`, `Load.harvest_beq_of_lost`, `Load.harvest_beq_of_perm` — the whole and
  its parts, a page that fails, and other pages with the same entries.
* `Load.harvest_homomorphism` — loading takes listings to harvests as concatenation to merging.
-/

set_option relaxedAutoImplicit false
set_option autoImplicit false

namespace KeyIntake

/-! ### Merging harvests -/

namespace Harvest

variable {α : Type} [BEq α] [EquivBEq α] (h k : Harvest α)

/-- A merged harvest contains what either harvest does. -/
lemma contains_merge (a : α) :
    (h.merge k).values.contains a = (h.values.contains a || k.values.contains a) :=
  Distinct.contains_insertAll h.values k.values.values a

/-- **Of equal values those of the first harvest are kept.** -/
theorem find?_merge (a : α) :
    (h.merge k).values.values.find? (· == a) =
      (h.values.values.find? (· == a)).or (k.values.values.find? (· == a)) :=
  Distinct.find?_insertAll h.values k.values.values a

/-- It does not matter which harvests are merged first. -/
lemma merge_assoc (j : Harvest α) : ((h.merge k).merge j == h.merge (k.merge j)) = true := by
  rw [beq_iff]
  refine ⟨Nat.add_assoc _ _ _, fun a => ?_⟩
  simp only [contains_merge, Bool.or_assoc]

/-- Up to equality it does not matter which harvest comes first. -/
lemma merge_comm : (h.merge k == k.merge h) = true := by
  rw [beq_iff]
  refine ⟨Nat.add_comm _ _, fun a => ?_⟩
  rw [contains_merge, contains_merge, Bool.or_comm]

/-- Merging nothing into a harvest adds nothing. -/
lemma merge_empty : (h.merge .empty == h) = true := by
  rw [beq_iff]
  refine ⟨Nat.add_zero _, fun a => ?_⟩
  rw [contains_merge]
  exact Bool.or_false _

/-- Merging a harvest into nothing gives that harvest. -/
lemma empty_merge : ((empty : Harvest α).merge h == h) = true := by
  rw [beq_iff]
  refine ⟨Nat.zero_add _, fun a => ?_⟩
  rw [contains_merge]
  exact Bool.false_or _

end Harvest

/-! ### Pages by their contents -/

namespace Page

/-- Pages behind some that all arrive come next. -/
lemma intact_append_of_ok {ps : List Page} {groups : List (List ListingEntry)}
    (h : ps.map Page.content = groups.map .ok) (qs : List Page) :
    intact (ps ++ qs) = groups ++ intact qs ∧ failure? (ps ++ qs) = failure? qs := by
  induction ps generalizing groups with
  | nil =>
    obtain rfl := List.map_eq_nil_iff.mp h.symm
    exact ⟨rfl, rfl⟩
  | cons p ps ih =>
    obtain ⟨entries, rest, rfl, hp, hrest⟩ := List.map_eq_cons_iff.mp h.symm
    obtain ⟨hintact, hfailure⟩ := ih hrest.symm
    rw [List.cons_append, intact_cons_ok _ hp.symm, failure?_cons_ok _ hp.symm, hintact, hfailure]
    exact ⟨rfl, rfl⟩

/-- Pages behind one that fails are never seen. -/
lemma intact_append_of_error {ps : List Page} {fault : Fault}
    (h : .error fault ∈ ps.map Page.content) (qs : List Page) :
    intact (ps ++ qs) = intact ps ∧ failure? (ps ++ qs) = failure? ps := by
  induction ps with
  | nil => exact absurd h List.not_mem_nil
  | cons p ps ih =>
    rw [List.cons_append]
    cases hcontent : p.content with
    | error fault' =>
      rw [intact_cons_error _ hcontent, intact_cons_error _ hcontent,
        failure?_cons_error _ hcontent, failure?_cons_error _ hcontent]
      exact ⟨rfl, rfl⟩
    | ok entries =>
      have hlater : .error fault ∈ ps.map Page.content := by
        rw [List.map_cons, hcontent] at h
        exact (List.mem_cons.mp h).resolve_left nofun
      obtain ⟨hintact, hfailure⟩ := ih hlater
      rw [intact_cons_ok _ hcontent, intact_cons_ok _ hcontent, failure?_cons_ok _ hcontent,
        failure?_cons_ok _ hcontent, hintact, hfailure]
      exact ⟨rfl, rfl⟩

end Page

namespace Load

variable {ι α : Type}

/-- The contents of the pages that a load lists, in order. A page that fails has a fault instead of
entries. -/
def Lists (l : Load ι α) (contents : List (Except Fault (List ListingEntry))) : Prop :=
  ∃ pages, l.listing = .ok pages ∧ pages.map Page.content = contents

section Lists

variable {l whole front rest : Load ι α} {groups : List (List ListingEntry)}
  {contents others : List (Except Fault (List ListingEntry))}

/-- A load that lists pages has opened its listing. -/
lemma Lists.isOk (h : l.Lists contents) : l.listing.isOk = true := by
  obtain ⟨pages, hopen, -⟩ := h
  rw [hopen]
  rfl

/-- Pages that all arrive bring their entries. -/
lemma Lists.of_ok (h : l.Lists (groups.map .ok)) :
    l.entries = groups.flatten ∧ l.lostPage? = none := by
  obtain ⟨pages, hopen, hpages⟩ := h
  obtain ⟨hintact, hfailure⟩ := Page.intact_append_of_ok hpages []
  rw [List.append_nil] at hintact hfailure
  rw [entries, lostPage?, pages_of_ok l hopen, hintact, hfailure]
  exact ⟨by rw [Page.intact, List.append_nil], rfl⟩

/-- Pages that all arrive bring their entries first, and those behind them bring theirs. -/
lemma Lists.append_of_ok (h : whole.Lists (groups.map .ok ++ contents))
    (hrest : rest.Lists contents) :
    whole.entries = groups.flatten ++ rest.entries ∧ whole.lostPage? = rest.lostPage? := by
  obtain ⟨pages, hopen, hpages⟩ := h
  obtain ⟨qs', hopen', hqs'⟩ := hrest
  obtain ⟨ps, qs, rfl, hps, hqs⟩ := List.map_eq_append_iff.mp hpages
  obtain ⟨hintact, hfailure⟩ := Page.intact_append_of_ok hps qs
  obtain ⟨hintact', hfailure'⟩ := Page.intact_congr (hqs.trans hqs'.symm)
  rw [entries, entries, lostPage?, lostPage?, pages_of_ok whole hopen, pages_of_ok rest hopen',
    hintact, hfailure, hintact', hfailure', List.flatten_append]
  exact ⟨rfl, rfl⟩

/-- Pages behind one that fails bring nothing. -/
lemma Lists.append_of_error (h : whole.Lists (contents ++ others)) (hfront : front.Lists contents)
    {fault : Fault} (hfault : .error fault ∈ contents) :
    whole.entries = front.entries ∧ whole.lostPage? = front.lostPage? := by
  obtain ⟨pages, hopen, hpages⟩ := h
  obtain ⟨ps', hopen', hps'⟩ := hfront
  obtain ⟨ps, qs, rfl, hps, hqs⟩ := List.map_eq_append_iff.mp hpages
  obtain ⟨hintact, hfailure⟩ := Page.intact_append_of_error (hps ▸ hfault) qs
  obtain ⟨hintact', hfailure'⟩ := Page.intact_congr (hps.trans hps'.symm)
  rw [entries, entries, lostPage?, lostPage?, pages_of_ok whole hopen, pages_of_ok front hopen',
    hintact, hfailure, hintact', hfailure']
  exact ⟨rfl, rfl⟩

end Lists

/-! ### Loads that treat items alike -/

/-- How the fetch of an item ends, if it does so before it is cut off. -/
def arrival? (l : Load ι α) (item : Item) : Option (Ending ι) :=
  match l.fetch item with
  | .ends delay ending => if l.limits.allows delay then some ending else none
  | .hangs => none

/-- **A load that treats items as another one**: it selects and maps in the same way, and the
fetches of the items it selects end in the same way or are cut off in both, whatever their delays
and the limits. -/
structure Agrees (l whole : Load ι α) : Prop where
  query : l.query = whole.query
  mapping : l.mapping = whole.mapping
  arrival : ∀ item ∈ l.selected, l.arrival? item = whole.arrival? item

/-- The fetch of an item ends in time iff it takes no longer than any timeout. -/
lemma arrival?_eq_some_iff {l : Load ι α} {item : Item} {ending : Ending ι} :
    l.arrival? item = some ending ↔
      ∃ delay, l.fetch item = .ends delay ending ∧ l.limits.allows delay = true := by
  unfold arrival?
  cases l.fetch item with
  | hangs => simp
  | ends delay ending' =>
    by_cases hallows : l.limits.allows delay = true
    · simp [hallows]
    · simp [hallows]

/-- What an item yields depends on how its fetch ends in time, and on the mapping. -/
lemma yield?_eq_some_iff_arrival {l : Load ι α} {item : Item} {values : List α} :
    l.yield? item = some values ↔
      ∃ input, l.arrival? item = some (.value input) ∧
        l.mapping item.name input = .value values := by
  rw [yield?_eq_some_iff]
  constructor
  · rintro ⟨delay, input, hfetch, hallows, hmap⟩
    exact ⟨input, arrival?_eq_some_iff.mpr ⟨delay, hfetch, Limits.allows_iff.mpr hallows⟩, hmap⟩
  · rintro ⟨input, harrival, hmap⟩
    obtain ⟨delay, hfetch, hallows⟩ := arrival?_eq_some_iff.mp harrival
    exact ⟨delay, input, hfetch, Limits.allows_iff.mp hallows, hmap⟩

/-! ### What entries bring in -/

section Entries

variable (l : Load ι α)

/-- How many of the entries are unreadable or are selected and yield nothing. -/
def missed (entries : List ListingEntry) : Nat :=
  (entries.filterMap ListingEntry.unreadable?).length +
    (l.query.selected entries).countP fun item => (l.yield? item).isNone

/-- What the selected ones among the entries yield. -/
def yielded (entries : List ListingEntry) : List α :=
  (l.query.selected entries).flatMap fun item => (l.yield? item).getD []

/-- A load brings in what its entries do. -/
lemma yields_eq_yielded : l.yields = l.yielded l.entries := rfl

/-- Entries bring in what their parts do. -/
lemma yielded_append (xs ys : List ListingEntry) :
    l.yielded (xs ++ ys) = l.yielded xs ++ l.yielded ys := by
  rw [yielded, TagQuery.selected_append, List.flatMap_append]
  rfl

/-- Entries miss what their parts do. -/
lemma missed_append (xs ys : List ListingEntry) :
    l.missed (xs ++ ys) = l.missed xs + l.missed ys := by
  simp only [missed, TagQuery.selected_append, List.filterMap_append, List.length_append,
    List.countP_append]
  omega

variable {l} {contents : List (Except Fault (List ListingEntry))}

/-- The faults of a load that opens its listing are those of its entries and that of a page that
fails. -/
lemma Lists.faults_eq (h : l.Lists contents) :
    l.faults = l.missed l.entries + if l.lostPage?.isSome then 1 else 0 := by
  rw [faults, h.isOk, if_pos rfl, Nat.add_zero]
  rfl

variable {whole : Load ι α}

/-- The items that a load selects yield what they do in one it agrees with. -/
lemma Agrees.yield?_eq (h : l.Agrees whole) {item : Item} (hitem : item ∈ l.selected) :
    l.yield? item = whole.yield? item := by
  refine Option.ext fun values => ?_
  rw [yield?_eq_some_iff_arrival, yield?_eq_some_iff_arrival, h.arrival item hitem, h.mapping]

/-- Its entries bring in and miss the same in both. -/
lemma Agrees.entries_eq (h : l.Agrees whole) :
    l.yielded l.entries = whole.yielded l.entries ∧
      l.missed l.entries = whole.missed l.entries := by
  have hyield : ∀ item ∈ whole.query.selected l.entries, l.yield? item = whole.yield? item := by
    intro item hitem
    rw [← h.query] at hitem
    exact h.yield?_eq hitem
  constructor
  · rw [yielded, yielded, h.query]
    exact List.flatMap_congr fun item hitem => by rw [hyield item hitem]
  · rw [missed, missed, h.query]
    congr 1
    exact List.countP_congr fun item hitem => by rw [hyield item hitem]

end Entries

/-! ### The whole and its parts -/

section Harvest

variable {l m whole front rest : Load ι α} {groups : List (List ListingEntry)}
  {contents others : List (Except Fault (List ListingEntry))} [BEq α] [EquivBEq α]

/-- Loads that bring in equal values and have as many faults gather equal harvests. -/
lemma harvest_beq_of_eq (hl : l.report.returned = true) (hm : m.report.returned = true)
    (hfaults : l.faults = m.faults) (hyields : ∀ a, l.yields.any (· == a) = m.yields.any (· == a)) :
    (l.report.harvest == m.report.harvest) = true := by
  rw [Harvest.beq_iff, faults_report hl, faults_report hm]
  refine ⟨hfaults, fun a => ?_⟩
  rw [contains_report hl, contains_report hm, hyields]

/-- **The whole brings in what its parts do**, if all pages of the first part arrive. -/
theorem harvest_beq_merge (hwhole : whole.Lists (groups.map .ok ++ contents))
    (hfront : front.Lists (groups.map .ok)) (hrest : rest.Lists contents)
    (hf : front.Agrees whole) (hr : rest.Agrees whole) (hretw : whole.report.returned = true)
    (hretf : front.report.returned = true) (hretr : rest.report.returned = true) :
    (whole.report.harvest == front.report.harvest.merge rest.report.harvest) = true := by
  obtain ⟨hentries, hlost⟩ := hwhole.append_of_ok hrest
  obtain ⟨hentries', hlost'⟩ := hfront.of_ok
  rw [← hentries'] at hentries
  obtain ⟨hyieldf, hmissf⟩ := hf.entries_eq
  obtain ⟨hyieldr, hmissr⟩ := hr.entries_eq
  have hmerged : (front.report.harvest.merge rest.report.harvest).faults =
      front.report.harvest.faults + rest.report.harvest.faults := rfl
  rw [Harvest.beq_iff, hmerged, faults_report hretw, faults_report hretf, faults_report hretr]
  constructor
  · rw [hwhole.faults_eq, hfront.faults_eq, hrest.faults_eq, hlost, hlost', hentries, missed_append,
      hmissf, hmissr]
    simp only [Option.isSome_none, Bool.false_eq_true, if_false]
    omega
  · intro a
    rw [Harvest.contains_merge, contains_report hretw, contains_report hretf, contains_report hretr,
      ← List.any_append, yields_eq_yielded, yields_eq_yielded, yields_eq_yielded, hentries,
      yielded_append, hyieldf, hyieldr]

/-- **A page that fails ends the listing**: the pages behind it bring in nothing. -/
theorem harvest_beq_of_lost (hwhole : whole.Lists (contents ++ others))
    (hfront : front.Lists contents) {fault : Fault} (hfault : .error fault ∈ contents)
    (hf : front.Agrees whole) (hretw : whole.report.returned = true)
    (hretf : front.report.returned = true) :
    (whole.report.harvest == front.report.harvest) = true := by
  obtain ⟨hentries, hlost⟩ := hwhole.append_of_error hfront hfault
  obtain ⟨hyield, hmiss⟩ := hf.entries_eq
  refine harvest_beq_of_eq hretw hretf ?_ fun a => ?_
  · rw [hwhole.faults_eq, hfront.faults_eq, hlost, hentries, hmiss]
  · rw [yields_eq_yielded, yields_eq_yielded, hentries, hyield]

/-- **The same entries bring in the same**, in whatever order and on whatever pages they are
listed. -/
theorem harvest_beq_of_perm {groups' : List (List ListingEntry)}
    (hl : l.Lists (groups.map .ok)) (hm : m.Lists (groups'.map .ok))
    (hperm : groups.flatten.Perm groups'.flatten) (hagrees : l.Agrees m)
    (hretl : l.report.returned = true) (hretm : m.report.returned = true) :
    (l.report.harvest == m.report.harvest) = true := by
  obtain ⟨hentries, hlost⟩ := hl.of_ok
  obtain ⟨hentries', hlost'⟩ := hm.of_ok
  rw [← hentries, ← hentries'] at hperm
  obtain ⟨hyield, hmiss⟩ := hagrees.entries_eq
  have hselected : (m.query.selected l.entries).Perm (m.query.selected m.entries) :=
    hperm.filterMap _
  refine harvest_beq_of_eq hretl hretm ?_ fun a => ?_
  · have hmissed : m.missed l.entries = m.missed m.entries := by
      rw [missed, missed, (hperm.filterMap _).length_eq, hselected.countP_eq]
    rw [hl.faults_eq, hm.faults_eq, hlost, hlost', hmiss, hmissed]
  · rw [yields_eq_yielded, yields_eq_yielded, hyield]
    exact (hselected.flatMap_right _).any_eq

/-- **Loading is a homomorphism**: it takes the concatenation of listings to the merging of
harvests, up to the equality of harvests, whatever the limits and the delays, as long as the same
fetches end in time and the loads return. Pages that all arrive and those behind them bring in what
the two parts bring in; the pages behind one that fails bring in nothing; and pages that all arrive
bring in what other pages with the same entries do. Merging is associative and commutative, a
harvest of nothing changes nothing, and of equal values those of the first harvest are kept. -/
theorem harvest_homomorphism :
    (∀ {whole front rest : Load ι α} {groups : List (List ListingEntry)}
        {contents : List (Except Fault (List ListingEntry))},
      whole.Lists (groups.map .ok ++ contents) → front.Lists (groups.map .ok) →
      rest.Lists contents → front.Agrees whole → rest.Agrees whole →
      whole.report.returned = true → front.report.returned = true →
      rest.report.returned = true →
      (whole.report.harvest == front.report.harvest.merge rest.report.harvest) = true) ∧
    (∀ {whole front : Load ι α} {contents others : List (Except Fault (List ListingEntry))}
        {fault : Fault},
      whole.Lists (contents ++ others) → front.Lists contents → .error fault ∈ contents →
      front.Agrees whole → whole.report.returned = true → front.report.returned = true →
      (whole.report.harvest == front.report.harvest) = true) ∧
    (∀ {l m : Load ι α} {groups groups' : List (List ListingEntry)},
      l.Lists (groups.map .ok) → m.Lists (groups'.map .ok) →
      groups.flatten.Perm groups'.flatten → l.Agrees m → l.report.returned = true →
      m.report.returned = true → (l.report.harvest == m.report.harvest) = true) ∧
    ∀ h k j : Harvest α,
      ((h.merge k).merge j == h.merge (k.merge j)) = true ∧ (h.merge k == k.merge h) = true ∧
      (h.merge .empty == h) = true ∧ (Harvest.empty.merge h == h) = true ∧
      ∀ a, (h.merge k).values.values.find? (· == a) =
        (h.values.values.find? (· == a)).or (k.values.values.find? (· == a)) :=
  ⟨harvest_beq_merge, fun hwhole hfront hfault => harvest_beq_of_lost hwhole hfront hfault,
    harvest_beq_of_perm, fun h k j =>
    ⟨h.merge_assoc k j, h.merge_comm k, h.merge_empty, h.empty_merge, h.find?_merge k⟩⟩

end Harvest

/-- The first page of the load with every kind of trouble, for a single worker that cuts off fetches
earlier. -/
def vanguard : Load String String :=
  { troubled with
    limits := { concurrency := 1, timeoutMillis := some 8 }
    listing := troubled.listing.map (List.take 1) }

/-- Its other pages, which are awaited for longer. -/
def rearguard : Load String String :=
  { troubled with
    limits := { concurrency := 5, timeoutMillis := some 4 }
    listing := troubled.listing.map fun pages =>
      (pages.drop 1).map fun page => { page with delay := page.delay + 6 } }

/-- The entries of its first page from last to first, one on each page. -/
def reversed : Load String String :=
  { troubled with
    listing := .ok ((troubled.entries.take 4).reverse.map fun entry => { content := .ok [entry] }) }

/-- The load with every kind of trouble, with its first page once more behind the one that fails. -/
def prolonged : Load String String :=
  { troubled with listing := troubled.listing.map fun pages => pages ++ pages.take 1 }

/-- The load with every kind of trouble keeps two values and counts five faults; its parts keep as
many values and count two and three faults. Reversing the entries of the first part and prolonging
the whole change nothing. -/
theorem harvest_beq_vanguard :
    troubled.report.harvest.faults = 5 ∧ vanguard.report.harvest.faults = 2 ∧
      rearguard.report.harvest.faults = 3 ∧ troubled.report.harvest.values.values = ["x", "y"] ∧
      (troubled.report.harvest ==
        vanguard.report.harvest.merge rearguard.report.harvest) = true ∧
      (prolonged.report.harvest == troubled.report.harvest) = true ∧
      (vanguard.report.harvest == reversed.report.harvest) = true := by
  let first := troubled.entries.take 4
  let others : List (Except Fault (List ListingEntry)) :=
    [.ok (troubled.entries.drop 4), .error ⟨.externalService, "connection reset"⟩]
  have hwhole : troubled.Lists ([first].map .ok ++ others) := ⟨_, rfl, rfl⟩
  have hfront : vanguard.Lists ([first].map .ok) := ⟨_, rfl, rfl⟩
  have hrest : rearguard.Lists others := ⟨_, rfl, rfl⟩
  have hprolonged : prolonged.Lists (([first].map .ok ++ others) ++ [.ok first]) := ⟨_, rfl, rfl⟩
  have hreversed : reversed.Lists ((first.reverse.map fun entry => [entry]).map .ok) :=
    ⟨_, rfl, rfl⟩
  have hnone (p : Item → Prop) : ∀ item ∈ ([] : List Item), p item :=
    fun _ hitem => absurd hitem List.not_mem_nil
  have hf : vanguard.Agrees troubled :=
    ⟨rfl, rfl, List.forall_mem_cons.mpr ⟨rfl, List.forall_mem_cons.mpr ⟨rfl, hnone _⟩⟩⟩
  have hr : rearguard.Agrees troubled :=
    ⟨rfl, rfl, List.forall_mem_cons.mpr ⟨rfl, List.forall_mem_cons.mpr ⟨rfl,
      List.forall_mem_cons.mpr ⟨rfl, hnone _⟩⟩⟩⟩
  obtain ⟨hmerge, hlost, hperm, -⟩ := @harvest_homomorphism String String _ _
  exact ⟨by decide, by decide, by decide, by decide,
    hmerge hwhole hfront hrest hf hr (by decide) (by decide) (by decide),
    hlost hprolonged hwhole (.tail _ (.tail _ (.head _))) ⟨rfl, rfl, fun _ _ => rfl⟩ (by decide)
      (by decide),
    hperm hfront hreversed (List.reverse_perm first).symm ⟨rfl, rfl, hf.arrival⟩ (by decide)
      (by decide)⟩

end Load

end KeyIntake
