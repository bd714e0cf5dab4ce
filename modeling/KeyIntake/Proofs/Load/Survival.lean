import KeyIntake.Proofs.Keyring.PrivateKey
import KeyIntake.Proofs.Load.Collection
import KeyIntake.Proofs.Load.Report
import KeyIntake.Proofs.Load.Trace
/-!
# Which of equal values survives

A harvest keeps the first of equal values, and values come in as jobs are collected. So of all jobs
that yield a value the one that ends first has its value kept, whichever order the items are listed
in. With a single worker, jobs are collected as they were started, and that is as they are listed.

## Main definitions

* `Load.units` — the jobs that were started in a load, with the instants at which they end.
* `Load.collected` — the jobs of a load as it collects them.
* `Load.CollectsInOrder` — the order in which a load collects, and what is kept of equal values.

## Main results

* `Load.values_report` — the values of a load are those of its jobs, as they are collected.
* `Load.collectsInOrder_report` — a load that returns collects in order.
* `Source.survivors` — the loads of the two kinds.
-/

set_option relaxedAutoImplicit false
set_option autoImplicit false

namespace KeyIntake

variable {ι α : Type}

/-! ### What jobs yield -/

/-- The values that a job yields; none if it fails. -/
def Running.values (u : Running α) : List α := u.outcome.toOption.getD []

/-- The values of a job are those that are noted when it is collected. -/
lemma Running.yielded_event (u : Running α) : u.event.yielded = u.values := by
  unfold event values
  cases u.outcome <;> rfl

/-- All values in a trace come from jobs. -/
lemma Event.flatMap_yielded_filter (trace : List (Event α)) :
    (trace.filter isOfJob).flatMap yielded = trace.flatMap yielded := by
  induction trace with
  | nil => rfl
  | cons e rest ih =>
    cases e <;> simp only [List.filter_cons, List.flatMap_cons, isOfJob, yielded, ih,
      ↓reduceIte, Bool.false_eq_true, List.nil_append]

/-- A job is among those that were started and end iff it is the one that was started under its
number. -/
lemma Start.mem_units_iff {job : Item → Job α} {starts : List Start} {u : Running α} :
    u ∈ units job starts ↔
      ∃ s, starts[u.index]? = some s ∧ (job s.item).running? u.index s.instant = some u := by
  rw [units, List.mem_filterMap]
  constructor
  · rintro ⟨⟨s, n⟩, hs, hu⟩
    obtain ⟨c, -, rfl⟩ := Option.map_eq_some_iff.mp hu
    exact ⟨s, List.mem_zipIdx_iff_getElem?.mp hs, hu⟩
  · rintro ⟨s, hs, hu⟩
    exact ⟨(s, u.index), List.mem_zipIdx_iff_getElem?.mpr hs, hu⟩

/-- If no job is stuck, all jobs that were started end, and what they have in common with the items
is found in the order of the starts. -/
lemma Start.map_units {β : Type} {job : Item → Job α} {starts : List Start} {f : Running α → β}
    {g : Start × Nat → β}
    (h : ∀ x ∈ starts.zipIdx,
      ∃ u, (job x.1.item).running? x.2 x.1.instant = some u ∧ f u = g x) :
    (units job starts).map f = starts.zipIdx.map g := by
  rw [units, List.map_filterMap]
  refine List.filterMap_eq_map_iff_forall_eq_some.mpr fun x hx => ?_
  obtain ⟨u, hu, hf⟩ := h x hx
  rw [hu, Option.map_some, hf]

namespace Load

variable (l : Load ι α)

/-! ### The jobs of a load -/

/-- The jobs that were started in a load with a report and end. -/
def units (r : Report α) : List (Running α) := Start.units l.job r.starts

/-- The jobs of a load as it collects them. -/
def collected : List (Running α) :=
  Pool.collected l.limits.workers {} (Agenda.ofPages l.query l.job 0 l.pages)

/-- What is noted of jobs in the run of a load is noted when they are collected. -/
lemma events_outcome :
    l.outcome.pool.trace.filter Event.isOfJob = l.collected.map Running.event :=
  Pool.events_collected _ _ _

/-- Of the jobs of a load, none comes before one that was collected earlier. -/
lemma pairwise_collected : l.collected.Pairwise Running.Before :=
  Pool.pairwise_collected ⟨List.Pairwise.nil, fun _ hu => absurd hu List.not_mem_nil⟩ _

/-- A single worker collects jobs as they were started. -/
lemma pairwise_collected_of_single (h : l.limits.concurrency ≤ 1) :
    l.collected.Pairwise fun u v => u.index < v.index := by
  have hworkers : l.limits.workers = 1 := Nat.max_eq_left h
  have hempty : ({} : Pool α).inFlight ≤ 1 := Nat.zero_le 1
  rw [collected, hworkers]
  exact Pool.pairwise_collected_one
    ⟨List.Pairwise.nil, fun _ hu => absurd hu List.not_mem_nil⟩ hempty _

/-- **What becomes of an item that is started**: its job goes on from that instant for the effective
length of its fetch, and yields what the item yields; if the item is stuck, it never ends. -/
lemma running?_job (item : Item) (index instant : Nat) :
    (l.isStuck item = true ∧ (l.job item).running? index instant = none) ∨
      ∃ u d, (l.job item).running? index instant = some u ∧ l.span? item = some d ∧
        u.index = index ∧ u.name = item.name ∧ u.finish = instant + d ∧
        u.outcome.toOption = l.yield? item := by
  unfold Job.running?
  rcases l.course_job item with ⟨hstuck, -, hc⟩ | ⟨d, -, hspan, ⟨values, hyield, hc⟩ |
    ⟨fault, hyield, hc⟩⟩
  · exact .inl ⟨hstuck, by rw [hc, Option.map_none]⟩
  · exact .inr ⟨⟨index, item.name, instant + d, .ok values⟩, d, by rw [hc]; rfl, hspan, rfl, rfl,
      rfl, hyield.symm⟩
  · exact .inr ⟨⟨index, item.name, instant + d, .error fault⟩, d, by rw [hc]; rfl, hspan, rfl, rfl,
      rfl, hyield.symm⟩

/-- A job of a load goes back to a start. -/
lemma start_of_mem_units {r : Report α} {u : Running α} (hu : u ∈ l.units r) :
    ∃ s d, r.starts[u.index]? = some s ∧ u.name = s.item.name ∧ l.span? s.item = some d ∧
      u.finish = s.instant + d ∧ u.outcome.toOption = l.yield? s.item := by
  obtain ⟨s, hs, hu⟩ := Start.mem_units_iff.mp hu
  rcases l.running?_job s.item u.index s.instant with ⟨-, hnone⟩ |
    ⟨u', d, hu', hspan, -, hname, hfinish, hyield⟩
  · rw [hnone] at hu
    exact absurd hu (Option.some_ne_none u).symm
  · obtain rfl := Option.some.inj (hu.symm.trans hu')
    exact ⟨s, d, hs, hname, hspan, hfinish, hyield⟩

section Report

variable [BEq α]

/-- The jobs that a load collects are those that were started and end. -/
lemma collected_perm : l.collected.Perm (l.units l.report) := by
  rw [units, starts_report]
  refine Pool.collected_perm _ _ l.job _ ?_ [] (List.Perm.refl _)
  rw [jobs_agenda, List.forall_mem_map]
  exact fun item _ => rfl

/-- What a load reports of jobs is reported as they are collected. -/
lemma events_report :
    l.report.trace.filter Event.isOfJob = l.collected.map Running.event := by
  rw [← events_outcome]
  cases hopen : l.listing with
  | error fault =>
    rw [report_of_error hopen, outcome, pages_of_error l hopen]
    rfl
  | ok pages =>
    rw [report_of_ok hopen, Report.ofOutcome]
    dsimp only
    split
    · rw [List.filter_append]
      exact List.append_nil _
    · rfl

/-- **The values of a load** are those that its jobs yield, as they are collected. -/
theorem values_report :
    l.report.harvest.values = Distinct.ofList (l.collected.flatMap Running.values) := by
  rw [Report.harvest, Event.values_harvest, ← Event.flatMap_yielded_filter, events_report,
    List.flatMap_map]
  simp only [Running.yielded_event]

section Returned

variable {l} (hret : l.report.returned = true)

include hret

/-- A load that returns starts the selected items. -/
lemma items_of_returned : l.report.starts.map Start.item = l.selected := by
  have hstuck := l.returned_outcome_iff.mp (by rwa [← returned_report])
  rw [starts_report, starts_outcome]
  refine cutAfter_of_countP_lt _ ?_
  rw [List.countP_eq_zero.mpr fun item hitem => Bool.eq_false_iff.mp (hstuck item hitem)]
  exact l.limits.workers_pos

/-- No item that is started in a load that returns is stuck. -/
lemma running?_of_returned {x : Start × Nat} (hx : x ∈ l.report.starts.zipIdx) :
    ∃ u, (l.job x.1.item).running? x.2 x.1.instant = some u ∧ u.index = x.2 ∧
      u.outcome.toOption = l.yield? x.1.item := by
  have hmem : x.1.item ∈ l.selected := by
    rw [← items_of_returned hret]
    exact List.mem_map_of_mem (List.fst_mem_of_mem_zipIdx hx)
  have hstuck := l.returned_outcome_iff.mp (by rwa [← returned_report]) x.1.item hmem
  rcases l.running?_job x.1.item x.2 x.1.instant with ⟨hstuck', -⟩ |
    ⟨u, d, hu, -, hindex, -, -, hyield⟩
  · rw [hstuck] at hstuck'
    exact absurd hstuck' Bool.false_ne_true
  · exact ⟨u, hu, hindex, hyield⟩

/-- All jobs that are started in a load that returns end. -/
lemma index_units : (l.units l.report).map Running.index =
    List.range l.report.starts.length := by
  rw [units, Start.map_units (f := Running.index) (g := Prod.snd), List.zipIdx_map_snd,
    List.range_eq_range']
  intro x hx
  obtain ⟨u, hu, hindex, -⟩ := running?_of_returned hret hx
  exact ⟨u, hu, hindex⟩

/-- The jobs of a load that returns yield what its selected items yield. -/
lemma outcome_units :
    (l.units l.report).map (fun u => u.outcome.toOption) = l.selected.map l.yield? := by
  rw [units, Start.map_units (g := fun x => l.yield? x.1.item), ← items_of_returned hret,
    List.map_map]
  · nth_rewrite 2 [← List.zipIdx_map_fst 0 l.report.starts]
    rw [List.map_map]
    rfl
  · intro x hx
    obtain ⟨u, hu, -, hyield⟩ := running?_of_returned hret hx
    exact ⟨u, hu, hyield⟩

end Returned

end Report

/-! ### First comers -/

section FirstComers

variable [BEq α]

/-- A value is kept of the jobs that are collected iff one of them yields it before any equal value,
and those collected earlier yield none. -/
lemma mem_ofList_flatMap_iff [EquivBEq α] {us : List (Running α)} {v : α} :
    v ∈ (Distinct.ofList (us.flatMap Running.values)).values ↔
      ∃ before u after, us = before ++ u :: after ∧ u.values.find? (· == v) = some v ∧
        ∀ u' ∈ before, u'.values.find? (· == v) = none := by
  rw [Distinct.mem_ofList_iff, List.find?_flatMap, List.findSome?_eq_some_iff]

/-- A list holds a value that equals `v` iff one is found in it. -/
lemma find?_ne_none_iff {values : List α} {v : α} :
    values.find? (· == v) ≠ none ↔ ∃ v' ∈ values, (v' == v) = true := by
  rw [← Option.isSome_iff_ne_none, List.find?_isSome]

end FirstComers

/-- **The order in which a load collects**, and what is kept of equal values. -/
structure CollectsInOrder [BEq α] (r : Report α) : Prop where
  /-- Every start gave one job, which is known by its number. -/
  started : (l.units r).map Running.index = List.range r.starts.length
  /-- It works on the item that was started, ends when the effective length of the fetch is over,
  and yields what the item yields. -/
  units : ∀ u ∈ l.units r, ∃ s d, r.starts[u.index]? = some s ∧ u.name = s.item.name ∧
    l.span? s.item = some d ∧ u.finish = s.instant + d ∧ u.outcome.toOption = l.yield? s.item
  /-- What is reported of jobs is reported as they are collected. -/
  events : r.trace.filter Event.isOfJob = l.collected.map Running.event
  /-- The jobs that were started are collected, each once. -/
  perm : l.collected.Perm (l.units r)
  /-- They are collected by the instants at which they end and, where these are equal, by their
  numbers. -/
  sorted : l.collected.Pairwise Running.Before
  /-- A value that is kept is the first of its equals in a job, and every other job with an equal
  value ends later. -/
  kept : ∀ v ∈ r.harvest.values.values, ∃ u ∈ l.units r, u.values.find? (· == v) = some v ∧
    ∀ u' ∈ l.units r, (∃ v' ∈ u'.values, (v' == v) = true) → u' = u ∨ u.Before u'
  /-- Of each value that a job yields an equal one is kept. -/
  covered : ∀ u ∈ l.units r, ∀ v ∈ u.values, r.harvest.values.contains v = true
  /-- A single worker collects as it starts. -/
  serial : l.limits.concurrency ≤ 1 → l.collected = l.units r
  /-- What it keeps is the first of its equals in the first item, in listing order, that yields
  one. -/
  listed : l.limits.concurrency ≤ 1 → ∀ v ∈ r.harvest.values.values,
    ∃ before item after values, l.selected = before ++ item :: after ∧
      l.yield? item = some values ∧ values.find? (· == v) = some v ∧
      ∀ item' ∈ before, ∀ values', l.yield? item' = some values' →
        ∀ v' ∈ values', (v' == v) = false

section Returned

variable {l} [BEq α] (hret : l.report.returned = true)

include hret

/-- A single worker collects the jobs that it started in the order of the starts. -/
lemma collected_of_single (h : l.limits.concurrency ≤ 1) : l.collected = l.units l.report := by
  have hunits : (l.units l.report).Pairwise fun u v => u.index < v.index := by
    rw [← List.pairwise_map (f := Running.index), index_units hret]
    exact List.pairwise_lt_range
  exact l.collected_perm.eq_of_pairwise (fun u v _ _ huv hvu => absurd huv hvu.asymm)
    (l.pairwise_collected_of_single h) hunits

variable [EquivBEq α]

/-- **A load that returns collects in order**, and so it keeps the values of those jobs that end
first.

**Proof sketch.** The values are those of the jobs as they are collected, and the first of equal
values is kept. A job collected later than the one it comes from ends later. A single worker
collects the jobs as they were started, and these are the selected items in listing order. -/
theorem collectsInOrder_report : l.CollectsInOrder l.report where
  started := index_units hret
  units _ hu := l.start_of_mem_units hu
  events := l.events_report
  perm := l.collected_perm
  sorted := l.pairwise_collected
  kept v hv := by
    rw [values_report, mem_ofList_flatMap_iff] at hv
    obtain ⟨before, u, after, hsplit, hfind, hbefore⟩ := hv
    have hperm := l.collected_perm
    have hsorted := l.pairwise_collected
    rw [hsplit] at hperm hsorted
    refine ⟨u, hperm.mem_iff.mp (List.mem_append_right _ List.mem_cons_self), hfind, ?_⟩
    intro u' hu' hv'
    rcases List.mem_append.mp (hperm.mem_iff.mpr hu') with hu' | hu'
    · exact absurd (hbefore u' hu') (find?_ne_none_iff.mpr hv')
    · rcases List.mem_cons.mp hu' with rfl | hu'
      · exact .inl rfl
      · exact .inr ((List.pairwise_cons.mp (List.pairwise_append.mp hsorted).2.1).1 u' hu')
  covered u hu v hv := by
    rw [values_report, Distinct.contains_ofList, List.any_eq_true]
    exact ⟨v, List.mem_flatMap.mpr ⟨u, l.collected_perm.mem_iff.mpr hu, hv⟩, BEq.rfl⟩
  serial := collected_of_single hret
  listed hsingle v hv := by
    rw [values_report, collected_of_single hret hsingle, mem_ofList_flatMap_iff] at hv
    obtain ⟨before, u, after, hsplit, hfind, hbefore⟩ := hv
    have hyield := outcome_units hret
    rw [hsplit, List.map_append, List.map_cons] at hyield
    obtain ⟨items, rest, hselected, hitems, hrest⟩ := List.map_eq_append_iff.mp hyield.symm
    obtain ⟨item, items', rfl, hitem, -⟩ := List.map_eq_cons_iff.mp hrest
    cases hu : u.outcome.toOption with
    | none =>
      rw [Running.values, hu] at hfind
      exact absurd hfind (Option.some_ne_none v).symm
    | some values =>
      rw [Running.values, hu] at hfind
      refine ⟨items, item, items', values, hselected, hitem.trans hu, hfind, ?_⟩
      intro item' hitem' values' hyield' v' hv'
      have hmem : l.yield? item' ∈ before.map fun u => u.outcome.toOption := by
        rw [← hitems]
        exact List.mem_map_of_mem hitem'
      obtain ⟨u', hu', houtcome⟩ := List.mem_map.mp hmem
      have hnone := hbefore u' hu'
      rw [Running.values, houtcome, hyield'] at hnone
      exact Bool.eq_false_iff.mpr (List.find?_eq_none.mp hnone v' hv')

end Returned

end Load

/-! ### The loads of the two kinds -/

namespace Source

variable (s : Source) (limits : Limits) (q : TagQuery)

/-- The private keys that a job yields come from its item. -/
lemma source_of_mem_values {u : Running PrivateKey} {r : Report PrivateKey} {k : PrivateKey}
    (hu : u ∈ (s.privateKeyLoad limits q).units r) (hk : k ∈ u.values) : k.source = u.name := by
  obtain ⟨start, d, -, hname, -, -, hyield⟩ := Load.start_of_mem_units _ hu
  cases hout : u.outcome.toOption with
  | none =>
    rw [Running.values, hout] at hk
    exact absurd hk List.not_mem_nil
  | some values =>
    rw [Running.values, hout] at hk
    rw [hname]
    exact source_of_yield (hyield.symm.trans hout) k hk

/-- **First comers survive.** Every load that returns collects in order, and so

* a private key that is kept bears the name of the secret whose job ends first among those that hold
  a key of that fingerprint, and it stands on the first such line there;
* a signing key that is kept is the one whose job ends first among those of that identifier.

Of jobs that end at the same instant, the one that was started first counts as the first. -/
theorem survivors :
    (∀ {ι α : Type} [BEq α] [EquivBEq α] (l : Load ι α), l.report.returned = true →
      l.CollectsInOrder l.report) ∧
    ((s.privateKeyLoad limits q).report.returned = true →
      ∀ k ∈ (s.privateKeyLoad limits q).report.harvest.values.values,
        ∃ u ∈ (s.privateKeyLoad limits q).units (s.privateKeyLoad limits q).report,
          k.source = u.name ∧
          u.values.find? (fun k' => k'.fingerprint == k.fingerprint) = some k ∧
          ∀ u' ∈ (s.privateKeyLoad limits q).units (s.privateKeyLoad limits q).report,
            (∃ k' ∈ u'.values, k'.fingerprint = k.fingerprint) → u' = u ∨ u.Before u') ∧
    ((s.signingKeyLoad limits q).report.returned = true →
      ∀ k ∈ (s.signingKeyLoad limits q).report.harvest.values.values,
        ∃ u ∈ (s.signingKeyLoad limits q).units (s.signingKeyLoad limits q).report,
          k ∈ u.values ∧
          ∀ u' ∈ (s.signingKeyLoad limits q).units (s.signingKeyLoad limits q).report,
            (∃ k' ∈ u'.values, k'.id = k.id) → u' = u ∨ u.Before u') := by
  refine ⟨fun l hret => Load.collectsInOrder_report hret, fun hret k hk => ?_, fun hret k hk => ?_⟩
  · obtain ⟨u, hu, hfind, hfirst⟩ := (Load.collectsInOrder_report hret).kept k hk
    refine ⟨u, hu, source_of_mem_values s limits q hu (List.mem_of_find?_eq_some hfind), hfind, ?_⟩
    rintro u' hu' ⟨k', hk', hprint⟩
    exact hfirst u' hu' ⟨k', hk', PrivateKey.beq_iff.mpr hprint⟩
  · obtain ⟨u, hu, hfind, hfirst⟩ := (Load.collectsInOrder_report hret).kept k hk
    refine ⟨u, hu, List.mem_of_find?_eq_some hfind, ?_⟩
    rintro u' hu' ⟨k', hk', hid⟩
    exact hfirst u' hu' ⟨k', hk', SigningKey.beq_iff.mpr hid⟩

/-- A source of two secrets that hold the same key, and of two signing keys with the same
identifier. What is listed first is fetched last. -/
def contended : Source where
  listing _ := .ok
    [{ content := .ok [.readable { name := "alpha" }, .readable { name := "bravo" }] }]
  secret name := .ends (if name = "alpha" then 5 else 2) (.value "0x01")
  key name _ := .ends (if name = "alpha" then 5 else 2)
    (.value { mount := "transit", name, id := "signer" })

/-- With two workers the keys of the item that is fetched first are kept, although it is listed
second; a single worker keeps those of the other one. -/
theorem survivors_contended :
    (contended.signingKeyLoad { concurrency := 1 } {}).CollectsInOrder
        (contended.signingKeyLoad { concurrency := 1 } {}).report ∧
      (∃ k ∈ (contended.privateKeyLoad { concurrency := 2 } {}).report.harvest.values.values,
        k.source = "bravo" ∧
        ∃ u ∈ (contended.privateKeyLoad { concurrency := 2 } {}).units
            (contended.privateKeyLoad { concurrency := 2 } {}).report,
          u.name = "bravo" ∧ k ∈ u.values) ∧
      (∀ k ∈ (contended.signingKeyLoad { concurrency := 2 } {}).report.harvest.values.values,
        ∃ u ∈ (contended.signingKeyLoad { concurrency := 2 } {}).units
          (contended.signingKeyLoad { concurrency := 2 } {}).report, k ∈ u.values) ∧
      (contended.signingKeyLoad { concurrency := 2 } {}).report.harvest.values.values.map
        SigningKey.name = ["bravo"] ∧
      (contended.signingKeyLoad { concurrency := 1 } {}).report.harvest.values.values.map
        SigningKey.name = ["alpha"] := by
  have h := survivors contended { concurrency := 2 } {}
  refine ⟨h.1 _ (by decide), ?_, fun k hk => ?_, by decide, by decide⟩
  · have hsources : (contended.privateKeyLoad { concurrency := 2 }
        {}).report.harvest.values.values.map PrivateKey.source = ["bravo"] := by decide +kernel
    obtain ⟨k, rest, hkeys, hk, -⟩ := List.map_eq_cons_iff.mp hsources
    have hmem : k ∈ (contended.privateKeyLoad { concurrency := 2 }
        {}).report.harvest.values.values := by
      rw [hkeys]
      exact List.mem_cons_self
    obtain ⟨u, hu, hsource, hfind, -⟩ := h.2.1 (by decide) k hmem
    exact ⟨k, hmem, hk, u, hu, hsource.symm.trans hk, List.mem_of_find?_eq_some hfind⟩
  · obtain ⟨u, hu, hmem, -⟩ := h.2.2 (by decide) k hk
    exact ⟨u, hu, hmem⟩

end Source

end KeyIntake
