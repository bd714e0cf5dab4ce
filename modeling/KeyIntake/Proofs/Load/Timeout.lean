import KeyIntake.Proofs.Load.Dispatch
import KeyIntake.Proofs.Load.Survival
import Mathlib.Order.GaloisConnection.Defs
/-!
# Timeouts of any length

A timeout may be any length of time, but it is stored in whole milliseconds, and not more of them
than a word can hold. Fetches take whole milliseconds, too, and their number is a word. So the
stored timeout cuts off the same fetches as the exact one would: those that take longer.

## Main definitions

* `Load.untimed` — a load without its timeout.
* `Load.CutsOff` — the timeout makes a difference to the job of an item.
* `Load.Judges` — what the timeout does to a job that was started.
* `Load.KeepsTimeout` — how the timeout is stored, and what it does to all jobs of a load.

## Main results

* `Span.gc_ofMillis_millis` — the whole milliseconds in a length of time are the most that fit in.
* `Limits.ofMillis_le_iff` — the stored timeout is no shorter than a delay iff the exact one is not.
* `Load.course_cases` — the job of an item under a timeout.
* `Load.keepsTimeout_report` — what a load does with its timeout.
-/

set_option relaxedAutoImplicit false
set_option autoImplicit false

namespace KeyIntake

/-! ### Lengths of time -/

namespace Span

/-- Lengths of time are ordered by their nanoseconds. -/
instance : LinearOrder Span := LinearOrder.lift' nanoseconds fun _ _ h => congrArg mk h

/-- A length of time is no longer than another one iff it has no more nanoseconds. -/
lemma le_iff {d e : Span} : d ≤ e ↔ d.nanoseconds ≤ e.nanoseconds := Iff.rfl

/-- **The whole milliseconds in a length of time** are the most that fit in. -/
theorem gc_ofMillis_millis : GaloisConnection ofMillis millis := by
  intro t d
  rw [le_iff]
  exact (Nat.le_div_iff_mul_le (by decide)).symm

/-- The whole milliseconds in seconds and further nanoseconds. -/
lemma millis_ofParts (seconds nanos : Nat) :
    (ofParts seconds nanos).millis = seconds * 1000 + nanos / 1000000 := by
  simp only [millis, ofParts]
  omega

end Span

/-! ### The stored timeout -/

namespace Limits

/-- A longer timeout is stored as one that is no shorter. -/
lemma stored_mono : Monotone fun d : Span => Span.ofMillis (min d.millis Word.largest) := by
  intro d e h
  exact Span.gc_ofMillis_millis.monotone_l
    (min_le_min_right Word.largest (Span.gc_ofMillis_millis.monotone_u h))

/-- No timeout is stored as a longer one. -/
lemma stored_le (d : Span) : Span.ofMillis (min d.millis Word.largest) ≤ d :=
  (Span.gc_ofMillis_millis.monotone_l (min_le_left _ _)).trans (Span.gc_ofMillis_millis.l_u_le d)

/-- **The stored timeout is no shorter than a delay** iff the exact timeout is not, if the delay is
a word.

**Proof sketch.** What the largest word leaves out is beyond all delays, and what is dropped of the
last millisecond is less than two delays can differ by. -/
theorem ofMillis_le_iff {d : Span} {delay : Nat} (hdelay : delay < Word.limit) :
    Span.ofMillis delay ≤ d ↔ delay ≤ min d.millis Word.largest := by
  have hword : delay ≤ Word.largest := Nat.le_pred_of_lt hdelay
  rw [le_min_iff, and_iff_left hword]
  exact Span.gc_ofMillis_millis delay d

end Limits

/-! ### Jobs under a timeout -/

/-- **A fetch under a timeout** ends in time and is left alone, or it takes longer and is cut off. -/
lemma Fetch.within_cases {ι : Type} (fetch : Fetch ι) (limit : Nat) :
    (∃ delay ending, fetch = .ends delay ending ∧ delay ≤ limit ∧
        fetch.within (some limit) = some (delay, ending)) ∨
      (∀ delay ending, fetch = .ends delay ending → limit < delay) ∧
        fetch.within (some limit) = some (limit, .fault (timeoutFault limit)) := by
  cases fetch with
  | hangs => exact .inr ⟨fun _ _ heq => (nomatch heq), rfl⟩
  | ends delay ending =>
    by_cases hdelay : delay ≤ limit
    · exact .inl ⟨delay, ending, rfl, hdelay, if_pos hdelay⟩
    · refine .inr ⟨fun delay' ending' heq => ?_, if_neg hdelay⟩
      obtain ⟨rfl, -⟩ := ends.inj heq
      exact Nat.lt_of_not_le hdelay

/-- The event reports a timeout. -/
def Event.isTimeout {α : Type} : Event α → Bool
  | lost _ fault => fault.kind == .timeout
  | _ => false

/-- A job is reported as timed out iff it ends with a fault of that kind. -/
lemma Running.isTimeout_event {α : Type} (u : Running α) :
    u.event.isTimeout = true ↔ ∃ fault, u.outcome = .error fault ∧ fault.kind = .timeout := by
  unfold event
  cases u.outcome <;> simp [Event.isTimeout]

namespace Load

variable {ι α : Type} (l : Load ι α) {item : Item} {limit : Nat}

/-- The load without its timeout. -/
def untimed : Load ι α := { l with limits := { l.limits with timeoutMillis := none } }

/-- **The fetch of an item is cut off**: its job takes another course than it would without the
timeout. -/
def CutsOff (item : Item) : Prop := (l.job item).course ≠ (l.untimed.job item).course

/-- **The job of an item under a timeout**: its fetch ends in time, and then the job takes the same
course as without the timeout, or it takes longer, and then the job fails when the timeout is over.

**Proof sketch.** By cases on the fetch under the timeout. A fetch that is cut off would end later
by itself, or never, so the timeout makes a difference whatever the fetch would end with. -/
theorem course_cases (h : l.limits.timeoutMillis = some limit) (item : Item) :
    (∃ delay ending, l.fetch item = .ends delay ending ∧ delay ≤ limit ∧ ¬ l.CutsOff item ∧
        (l.job item).course = some (delay, (ending.andThen (l.mapping item.name)).settle)) ∨
      (∀ delay ending, l.fetch item = .ends delay ending → limit < delay) ∧ l.CutsOff item ∧
        (l.job item).course = some (limit, .error (Fetch.timeoutFault limit)) := by
  have hcourse : (l.job item).course = ((l.fetch item).within (some limit)).map fun p =>
      (p.1, (p.2.andThen (l.mapping item.name)).settle) := by
    rw [← h]
    rfl
  have huntimed : (l.untimed.job item).course = ((l.fetch item).within none).map fun p =>
      (p.1, (p.2.andThen (l.mapping item.name)).settle) := rfl
  rcases (l.fetch item).within_cases limit with
    ⟨delay, ending, hfetch, hdelay, hwithin⟩ | ⟨hlate, hwithin⟩
  · rw [hwithin, Option.map_some] at hcourse
    refine .inl ⟨delay, ending, hfetch, hdelay, not_not_intro ?_, hcourse⟩
    rw [hcourse, huntimed, hfetch]
    rfl
  · rw [hwithin] at hcourse
    have hcut : (l.job item).course = some (limit, .error (Fetch.timeoutFault limit)) := hcourse
    refine .inr ⟨hlate, fun heq => ?_, hcut⟩
    rw [hcut, huntimed] at heq
    cases hfetch : l.fetch item with
    | hangs =>
      rw [hfetch] at heq
      exact absurd heq (Option.some_ne_none _)
    | ends delay ending =>
      rw [hfetch] at heq
      have hlimit : limit = delay := congrArg Prod.fst (Option.some.inj heq)
      exact (hlate delay ending hfetch).ne hlimit

section Verdict

variable {l} (h : l.limits.timeoutMillis = some limit)

include h

/-- A fetch that takes a number of milliseconds is cut off iff the timeout is shorter. -/
lemma cutsOff_iff_of_ends {delay : Nat} {ending : Ending ι}
    (hfetch : l.fetch item = .ends delay ending) : l.CutsOff item ↔ limit < delay := by
  rcases l.course_cases h item with ⟨delay', ending', hfetch', hle, hkept, -⟩ | ⟨hlate, hcut, -⟩
  · obtain ⟨rfl, -⟩ := Fetch.ends.inj (hfetch.symm.trans hfetch')
    exact iff_of_false hkept (Nat.not_lt.mpr hle)
  · exact iff_of_true hcut (hlate delay ending hfetch)

/-- A fetch that never ends is cut off by every timeout. -/
lemma cutsOff_of_hangs (hfetch : l.fetch item = .hangs) : l.CutsOff item := by
  rcases l.course_cases h item with ⟨delay, ending, hfetch', -⟩ | ⟨-, hcut, -⟩
  · rw [hfetch] at hfetch'
    cases hfetch'
  · exact hcut

/-- The job of an item whose fetch is cut off fails when the timeout is over. -/
lemma course_of_cutsOff (hcut : l.CutsOff item) :
    (l.job item).course = some (limit, .error (Fetch.timeoutFault limit)) := by
  rcases l.course_cases h item with ⟨-, -, -, -, hkept, -⟩ | ⟨-, -, hcourse⟩
  · exact absurd hcut hkept
  · exact hcourse

/-- Any other job ends when the fetch does. -/
lemma exists_course_of_not_cutsOff (hkept : ¬ l.CutsOff item) :
    ∃ delay ending, l.fetch item = .ends delay ending ∧
      (l.job item).course = some (delay, (ending.andThen (l.mapping item.name)).settle) := by
  rcases l.course_cases h item with ⟨delay, ending, hfetch, -, -, hcourse⟩ | ⟨-, hcut, -⟩
  · exact ⟨delay, ending, hfetch, hcourse⟩
  · exact absurd hcut hkept

/-- A job is reported as timed out iff its fetch is cut off, unless it would end with a timeout by
itself. -/
lemma isTimeout_event_iff {u : Running α} {duration : Nat}
    (hcourse : (l.job item).course = some (duration, u.outcome))
    (hother : ∀ fault ∈ l.untimed.fault? item, fault.kind ≠ .timeout) :
    u.event.isTimeout = true ↔ l.CutsOff item := by
  rw [u.isTimeout_event]
  constructor
  · rintro ⟨fault, herror, hkind⟩
    by_contra hkept
    refine hother fault ?_ hkind
    rw [fault?, ← not_not.mp hkept, hcourse, herror]
    rfl
  · intro hcut
    rw [course_of_cutsOff h hcut] at hcourse
    exact ⟨_, (congrArg Prod.snd (Option.some.inj hcourse)).symm, rfl⟩

end Verdict

/-- A job that was started goes on from its start and takes the course of its item. -/
lemma exists_start_of_mem_units {r : Report α} {u : Running α} (hu : u ∈ l.units r) :
    ∃ s duration, r.starts[u.index]? = some s ∧
      (l.job s.item).course = some (duration, u.outcome) ∧ u.name = s.item.name ∧
      u.finish = s.instant + duration := by
  obtain ⟨s, hs, hrun⟩ := Start.mem_units_iff.mp hu
  obtain ⟨⟨duration, outcome⟩, hcourse, heq⟩ := Option.map_eq_some_iff.mp hrun
  rw [← heq] at hs ⊢
  exact ⟨s, duration, hs, hcourse, rfl, rfl⟩

/-- **What a timeout does to a job** that was started: it goes on from the start `s` as `u`. -/
structure Judges (d : Span) (s : Start) (u : Running α) : Prop where
  /-- A fetch that ends after a word of milliseconds is cut off iff that is longer than the
  timeout, -/
  cutsOff_iff : ∀ delay ending, l.fetch s.item = .ends delay ending → delay < Word.limit →
    (l.CutsOff s.item ↔ d < .ofMillis delay)
  /-- and one that never ends is cut off. -/
  hangs : l.fetch s.item = .hangs → l.CutsOff s.item
  /-- A job whose fetch is cut off fails with a timeout when the whole milliseconds of the timeout
  are over, or as many of them as a word can hold. -/
  cut : l.CutsOff s.item → u.finish = s.instant + min d.millis Word.largest ∧
    u.event = .lost s.item.name (Fetch.timeoutFault (min d.millis Word.largest))
  /-- Any other job ends when the fetch does, with what fetch and mapping come to. -/
  kept : ¬ l.CutsOff s.item → ∃ delay ending, l.fetch s.item = .ends delay ending ∧
    u.finish = s.instant + delay ∧ u.outcome = (ending.andThen (l.mapping s.item.name)).settle
  /-- So a timeout is reported iff the fetch is cut off, unless fetch and mapping come to one by
  themselves. -/
  told : (∀ fault ∈ l.untimed.fault? s.item, fault.kind ≠ .timeout) →
    (u.event.isTimeout = true ↔ l.CutsOff s.item)

/-- **What a load does with a timeout**, if it has a report. -/
structure KeepsTimeout (d : Span) (r : Report α) : Prop where
  /-- The timeout is stored as its whole milliseconds, or as many of them as a word can hold. -/
  stored : l.limits.timeout = some (.ofMillis (min d.millis Word.largest))
  /-- These are the milliseconds in its seconds and further nanoseconds. -/
  stored_ofParts : ∀ seconds nanos, d = .ofParts seconds nanos →
    l.limits.timeoutMillis = some (min (seconds * 1000 + nanos / 1000000) Word.largest)
  /-- What is stored is no longer than the timeout, -/
  stored_le : ∀ e ∈ l.limits.timeout, e ≤ d
  /-- and no longer than what is stored of a longer one. -/
  stored_mono : ∀ (limits : Limits) (d' : Span), d ≤ d' →
    ∀ e ∈ l.limits.timeout, ∀ e' ∈ (limits.withTimeout d').timeout, e ≤ e'
  /-- The load returns, -/
  returned : r.returned = true
  /-- it has started the selected items, -/
  items : r.starts.map Start.item = l.selected
  /-- every start gave one job, -/
  started : (l.units r).map Running.index = List.range r.starts.length
  /-- and each job is reported on once. -/
  events : (r.trace.filter Event.isOfJob).Perm ((l.units r).map Running.event)
  /-- Each job is judged by the exact timeout. -/
  judged : ∀ u ∈ l.units r, ∃ s, r.starts[u.index]? = some s ∧ l.Judges d s u

variable {l} {d : Span}

/-- A job that was started is judged by the exact timeout, of which the whole milliseconds are
stored. -/
lemma exists_judges (h : l.limits.timeoutMillis = some (min d.millis Word.largest))
    {r : Report α} {u : Running α} (hu : u ∈ l.units r) :
    ∃ s, r.starts[u.index]? = some s ∧ l.Judges d s u := by
  obtain ⟨s, duration, hs, hcourse, hname, hfinish⟩ := l.exists_start_of_mem_units hu
  refine ⟨s, hs, {
    cutsOff_iff := ?verdict
    hangs := cutsOff_of_hangs h
    cut := ?cut
    kept := ?kept
    told := isTimeout_event_iff h hcourse }⟩
  case verdict =>
    intro delay ending hfetch hdelay
    rw [cutsOff_iff_of_ends h hfetch, ← not_le, ← not_le, Limits.ofMillis_le_iff hdelay]
  case cut =>
    intro hcut
    obtain ⟨rfl, houtcome⟩ :=
      Prod.mk.inj (Option.some.inj (hcourse.symm.trans (course_of_cutsOff h hcut)))
    refine ⟨hfinish, ?_⟩
    rw [Running.event, houtcome, hname]
  case kept =>
    intro hkept
    obtain ⟨delay, ending, hfetch, hown⟩ := exists_course_of_not_cutsOff h hkept
    obtain ⟨rfl, houtcome⟩ := Prod.mk.inj (Option.some.inj (hcourse.symm.trans hown))
    exact ⟨duration, ending, hfetch, hfinish, houtcome⟩

/-- **Storing a timeout in milliseconds changes no verdict.** A load with a timeout of any length
cuts off exactly the fetches that take longer.

**Proof sketch.** The stored timeout is the most milliseconds in a word that the exact one holds, so
it lets the same delays pass. A job ends in time as it would without a timeout, or it fails when the
stored timeout is over; there is a timeout, so every job that was started ends and is reported. -/
theorem keepsTimeout_report [BEq α] {limits : Limits} (h : l.limits = limits.withTimeout d) :
    l.KeepsTimeout d l.report := by
  have hmillis : l.limits.timeoutMillis = some (min d.millis Word.largest) := by
    rw [h]
    rfl
  have htimeout : l.limits.timeout = some (.ofMillis (min d.millis Word.largest)) := by
    rw [Limits.timeout, hmillis, Option.map_some]
  have hret : l.report.returned = true := by
    refine l.returned_report_iff.mpr fun item _ => l.isStuck_of_timeout ?_ item
    rw [hmillis, Option.isSome_some]
  refine {
    stored := htimeout
    stored_ofParts := ?parts
    stored_le := ?le
    stored_mono := ?mono
    returned := hret
    items := items_of_returned hret
    started := index_units hret
    events := ?events
    judged := fun u hu => exists_judges hmillis hu }
  case parts =>
    rintro seconds nanos rfl
    rw [hmillis, Span.millis_ofParts]
  case le =>
    intro e he
    obtain rfl := Option.some.inj (htimeout.symm.trans he)
    exact Limits.stored_le d
  case mono =>
    intro limits' d' hd e he e' he'
    obtain rfl := Option.some.inj (htimeout.symm.trans he)
    obtain rfl := Option.some.inj he'
    exact Limits.stored_mono hd
  case events =>
    rw [l.events_report]
    exact l.collected_perm.map _

/-- The longest timeout that seconds in a word can give is stored as the largest word. -/
example : (({} : Limits).withTimeout (.ofParts Word.largest 999999999)).timeoutMillis =
    some Word.largest := by decide

/-- The load with every kind of trouble, and a timeout that is a nanosecond short of the four
milliseconds that one of its fetches takes. -/
def hasty : Load String String :=
  { troubled with limits := Limits.withTimeout { concurrency := 2 } (.ofParts 0 3999999) }

/-- That fetch is cut off after three milliseconds, although it would end in the fourth. One that
takes three is not. -/
theorem keepsTimeout_hasty :
    hasty.limits = Limits.withTimeout { concurrency := 2 } (.ofParts 0 3999999) ∧
      hasty.KeepsTimeout (.ofParts 0 3999999) hasty.report ∧
      (∃ u ∈ hasty.units hasty.report, u.index = 2 ∧ u.finish = 4 + 3 ∧
        u.event = .lost "carol" (Fetch.timeoutFault 3)) ∧
      ∃ u ∈ hasty.units hasty.report, u.index = 3 ∧ u.finish = 4 + 3 ∧
        u.outcome = .ok ["x", "y"] := by
  have hlimits : hasty.limits = Limits.withTimeout { concurrency := 2 } (.ofParts 0 3999999) := rfl
  have h := keepsTimeout_report hlimits
  have hunit (n : Nat) (hn : n ∈ List.range hasty.report.starts.length) :
      ∃ u ∈ hasty.units hasty.report, u.index = n := by
    rw [← h.started] at hn
    exact List.mem_map.mp hn
  refine ⟨hlimits, h, ?_, ?_⟩
  · obtain ⟨u, hu, hindex⟩ := hunit 2 (by decide)
    obtain ⟨s, hs, hjudged⟩ := h.judged u hu
    rw [hindex] at hs
    obtain rfl : Start.mk (troubled.tagged "carol") 4 = s :=
      Option.some.inj (Eq.trans (by decide) hs)
    have hcut := (hjudged.cutsOff_iff 4 (.panic none) rfl (by decide)).mpr (by decide)
    exact ⟨u, hu, hindex, hjudged.cut hcut⟩
  · obtain ⟨u, hu, hindex⟩ := hunit 3 (by decide)
    obtain ⟨s, hs, hjudged⟩ := h.judged u hu
    rw [hindex] at hs
    obtain rfl : Start.mk (troubled.tagged "alpha") 4 = s :=
      Option.some.inj (Eq.trans (by decide) hs)
    have hiff := hjudged.cutsOff_iff 3 (.value "x,y") rfl (by decide)
    obtain ⟨delay, ending, hfetch, hfinish, houtcome⟩ :=
      hjudged.kept (mt hiff.mp (by decide))
    obtain ⟨rfl, rfl⟩ := Fetch.ends.inj hfetch
    exact ⟨u, hu, hindex, hfinish, houtcome⟩

end Load

end KeyIntake
