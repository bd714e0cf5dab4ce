import KeyIntake.Keyring.Source
import KeyIntake.Load.Stock
import KeyIntake.Proofs.Load.Agenda
/-!
# Loads as wholes

What a load is given: a listing and a query that selects among what is listed, a way to fetch an
item and to map what was fetched, and limits. From these data alone, without any pool, it is said
here which items are selected, which of them are stuck, and what becomes of each of the others.

## Main definitions

* `Load` — what a load is given; `Load.report` is what comes of it.
* `Source.secretLoad`, `Source.keyLoad` — the loads of the two kinds.
* `Load.entries`, `Load.selected`, `Load.unreadable`, `Load.lostPage?` — what the listing offers.
* `Load.isStuck`, `Load.yield?`, `Load.fault?` — what becomes of an item.
* `Source.stalling`, `Load.troubled` — a source with fetches that never end, and a load in which
  everything else goes wrong.

## Main results

* `Load.yield?_eq_some_iff` — when an item yields values.
* `Load.course_job` — what the job of an item does.
* `Load.events_job_cases` — an item that is not stuck either yields values or has a fault.
* `Source.report_secretLoad`, `Source.report_keyLoad` — loading secrets and keys are loads in this
  sense.
-/

set_option relaxedAutoImplicit false
set_option autoImplicit false

namespace KeyIntake

/-! ### Endings and timeouts -/

namespace Ending

variable {β γ : Type}

/-- Work that goes on with a value gives one iff both parts do. -/
lemma andThen_eq_value_iff {e : Ending β} {next : β → Ending γ} {c : γ} :
    e.andThen next = .value c ↔ ∃ b, e = .value b ∧ next b = .value c := by
  cases e <;> simp [andThen]

/-- A settled ending is a value, or it is a fault because there was none. -/
lemma settle_cases (e : Ending β) :
    (∃ b, e = .value b ∧ e.settle = .ok b) ∨
      (∀ b, e ≠ .value b) ∧ ∃ fault, e.settle = .error fault := by
  cases e with
  | value b => exact .inl ⟨b, rfl, rfl⟩
  | fault f => exact .inr ⟨by simp, f, rfl⟩
  | panic m => exact .inr ⟨by simp, _, rfl⟩

end Ending

namespace Limits

/-- A fetch that takes this long is not cut off. -/
def allows (l : Limits) (delay : Nat) : Bool :=
  match l.timeoutMillis with
  | none => true
  | some limit => decide (delay ≤ limit)

variable {l : Limits} {delay : Nat}

/-- A fetch is not cut off iff no timeout is shorter than its delay. -/
lemma allows_iff : l.allows delay = true ↔ ∀ limit ∈ l.timeoutMillis, delay ≤ limit := by
  unfold allows
  cases l.timeoutMillis <;> simp

/-- A fetch that is cut off has a delay longer than the timeout. -/
lemma exists_of_not_allows (h : ¬ l.allows delay = true) :
    ∃ limit, l.timeoutMillis = some limit ∧ limit < delay := by
  rw [allows_iff] at h
  push Not at h
  exact h

end Limits

/-! ### Loads -/

/-- What a load is given. -/
structure Load (ι α : Type) where
  kind : ItemKind
  limits : Limits
  query : TagQuery
  fetch : Item → Fetch ι
  mapping : Mapping ι α
  listing : Listing

namespace Load

variable {ι α : Type} (l : Load ι α)

/-- The job of an item. -/
def job : Item → Job α := Job.of l.limits.timeoutMillis l.fetch l.mapping

/-- What comes of the load. -/
def report [BEq α] : Report α := .ofListing l.kind l.limits l.query l.job l.listing

/-! ### What the listing offers -/

/-- The pages of the listing, if it opens. -/
def pages : List Page :=
  match l.listing with
  | .ok pages => pages
  | .error _ => []

/-- The entries of the pages before the first one that fails, in listing order. -/
def entries : List ListingEntry := (Page.intact l.pages).flatten

/-- The selected items among the entries, in listing order and as often as they are listed. -/
def selected : List Item := l.query.selected l.entries

/-- The unreadable entries, whether or not their items would be selected. -/
def unreadable : List (String × Fault) := l.entries.filterMap ListingEntry.unreadable?

/-- The fault of the page that ends the listing early. -/
def lostPage? : Option Fault := Page.failure? l.pages

/-! ### What becomes of an item -/

/-- The fetch of the item never ends, and no timeout cuts it off. -/
def isStuck (item : Item) : Bool :=
  match l.fetch item, l.limits.timeoutMillis with
  | .hangs, none => true
  | _, _ => false

/-- The values of an item: its fetch ends within the timeout and gives a value, for which the
mapping yields these values. The timeout does not cover the mapping. -/
def yield? (item : Item) : Option (List α) :=
  match l.fetch item with
  | .ends delay (.value input) =>
    if l.limits.allows delay then
      match l.mapping item.name input with
      | .value values => some values
      | .fault _ | .panic _ => none
    else none
  | .ends _ (.fault _) | .ends _ (.panic _) | .hangs => none

/-- The fault with which the job of an item ends. -/
def fault? (item : Item) : Option Fault :=
  match (l.job item).course with
  | some (_, .error fault) => some fault
  | _ => none

variable {l} {item : Item}

/-- **When an item yields values**: its fetch gives a value, no timeout is shorter than its delay,
and the mapping neither fails nor panics. -/
theorem yield?_eq_some_iff {values : List α} :
    l.yield? item = some values ↔
      ∃ delay input, l.fetch item = .ends delay (.value input) ∧
        (∀ limit ∈ l.limits.timeoutMillis, delay ≤ limit) ∧
        l.mapping item.name input = .value values := by
  constructor
  · intro h
    unfold yield? at h
    split at h
    · rename_i delay input hfetch
      split at h
      · rename_i hdelay
        split at h
        · rename_i values' hmap
          obtain rfl := Option.some.inj h
          exact ⟨delay, input, hfetch, Limits.allows_iff.mp hdelay, hmap⟩
        all_goals exact absurd h (Option.some_ne_none values).symm
      · exact absurd h (Option.some_ne_none values).symm
    all_goals exact absurd h (Option.some_ne_none values).symm
  · rintro ⟨delay, input, hfetch, hdelay, hmap⟩
    simp only [yield?, hfetch, Limits.allows_iff.mpr hdelay, hmap, ↓reduceIte]

variable (l)

/-! ### The job of an item -/

/-- The job of an item is the job of that item. -/
@[simp] lemma item_job (item : Item) : (l.job item).item = item := rfl

/-- The effective length of a fetch: its delay, cut at the timeout. A fetch that never ends has one
only if there is a timeout. -/
def span? (item : Item) : Option Nat :=
  match l.fetch item, l.limits.timeoutMillis with
  | .ends delay _, none => some delay
  | .ends delay _, some limit => some (min delay limit)
  | .hangs, limit => limit

/-- The span of a fetch that is not cut off is its delay. -/
lemma span?_of_allows {delay : Nat} {ending : Ending ι} (hfetch : l.fetch item = .ends delay ending)
    (h : l.limits.allows delay = true) : l.span? item = some delay := by
  cases htime : l.limits.timeoutMillis with
  | none => simp only [span?, hfetch, htime]
  | some limit =>
    have hle : delay ≤ limit := Limits.allows_iff.mp h limit htime
    simp only [span?, hfetch, htime, Nat.min_eq_left hle]

/-- A fetch that is not cut off ends as it would without a timeout. -/
lemma within_of_allows {delay : Nat} {ending : Ending ι}
    (h : l.limits.allows delay = true) :
    (Fetch.ends delay ending).within l.limits.timeoutMillis = some (delay, ending) := by
  cases htime : l.limits.timeoutMillis with
  | none => rfl
  | some limit => exact if_pos (Limits.allows_iff.mp h limit htime)

/-- **The courses of a job**: it never ends, or it ends after its effective length, with the values
that the item yields or, if it yields none, with a fault.

**Proof sketch.** By cases on the fetch and the timeout. Only a fetch that ends in time with a value
gets to the mapping; every other ending is settled as a fault. -/
theorem course_job (item : Item) :
    (l.isStuck item = true ∧ l.span? item = none ∧ (l.job item).course = none) ∨
      ∃ duration, l.isStuck item = false ∧ l.span? item = some duration ∧
        ((∃ values, l.yield? item = some values ∧
            (l.job item).course = some (duration, .ok values)) ∨
          ∃ fault, l.yield? item = none ∧
            (l.job item).course = some (duration, .error fault)) := by
  have hcourse : (l.job item).course =
      ((l.fetch item).within l.limits.timeoutMillis).map fun p =>
        (p.1, (p.2.andThen (l.mapping item.name)).settle) := rfl
  have hnone : (∀ values, l.yield? item ≠ some values) → l.yield? item = none :=
    Option.eq_none_iff_forall_ne_some.mpr
  cases hfetch : l.fetch item with
  | hangs =>
    cases htime : l.limits.timeoutMillis with
    | none =>
      refine .inl ⟨?_, ?_, ?_⟩ <;> simp only [isStuck, span?, hcourse, hfetch, htime]
      rfl
    | some limit =>
      refine .inr ⟨limit, ?_, ?_, .inr ⟨Fetch.timeoutFault limit, ?_, ?_⟩⟩ <;>
        simp only [isStuck, span?, yield?, hcourse, hfetch, htime]
      rfl
  | ends delay ending =>
    have hstuck : l.isStuck item = false := by simp only [isStuck, hfetch]
    by_cases hallow : l.limits.allows delay = true
    · refine .inr ⟨delay, hstuck, span?_of_allows l hfetch hallow, ?_⟩
      rw [hcourse, hfetch, within_of_allows l hallow, Option.map_some]
      rcases (ending.andThen (l.mapping item.name)).settle_cases with
        ⟨values, hvalue, hset⟩ | ⟨hno, fault, hset⟩
      · obtain ⟨input, rfl, hmap⟩ := Ending.andThen_eq_value_iff.mp hvalue
        refine .inl ⟨values, ?_, by rw [hset]⟩
        exact yield?_eq_some_iff.mpr ⟨delay, input, hfetch, Limits.allows_iff.mp hallow, hmap⟩
      · refine .inr ⟨fault, hnone fun values hyield => ?_, by rw [hset]⟩
        obtain ⟨delay', input, hfetch', -, hmap⟩ := yield?_eq_some_iff.mp hyield
        obtain ⟨rfl, rfl⟩ := Fetch.ends.inj (hfetch.symm.trans hfetch')
        exact hno values (Ending.andThen_eq_value_iff.mpr ⟨input, rfl, hmap⟩)
    · obtain ⟨limit, htime, hlt⟩ := Limits.exists_of_not_allows hallow
      have hspan : l.span? item = some limit := by
        simp only [span?, hfetch, htime, Nat.min_eq_right hlt.le]
      refine .inr ⟨limit, hstuck, hspan, .inr ⟨Fetch.timeoutFault limit,
        hnone fun values hyield => ?_, ?_⟩⟩
      · obtain ⟨delay', input, hfetch', hdelay, -⟩ := yield?_eq_some_iff.mp hyield
        obtain ⟨rfl, -⟩ := Fetch.ends.inj (hfetch.symm.trans hfetch')
        exact hallow (Limits.allows_iff.mpr hdelay)
      · simp only [hcourse, hfetch, htime, Fetch.within, if_neg (Nat.not_le.mpr hlt)]
        rfl

/-! ### What follows for the job of an item -/

/-- The job of an item is stuck iff the item is. -/
lemma isStuck_job (item : Item) : (l.job item).isStuck = l.isStuck item := by
  rcases l.course_job item with ⟨hstuck, -, hc⟩ | ⟨d, hstuck, -, ⟨v, -, hc⟩ | ⟨f, -, hc⟩⟩ <;>
    simp [Job.isStuck, hc, hstuck]

/-- The effective length of a fetch is the time that the job of its item takes. -/
lemma span?_eq_course (item : Item) : l.span? item = (l.job item).course.map Prod.fst := by
  rcases l.course_job item with ⟨-, hspan, hc⟩ | ⟨d, -, hspan, ⟨v, -, hc⟩ | ⟨f, -, hc⟩⟩ <;>
    simp [hc, hspan]

/-- **An item that is not stuck either yields values or has a fault**, and its job is noted
accordingly. -/
theorem events_job_cases {item : Item} (h : l.isStuck item = false) :
    (∃ values, l.yield? item = some values ∧ l.fault? item = none ∧
        (l.job item).events = [.loaded item.name values]) ∨
      ∃ fault, l.yield? item = none ∧ l.fault? item = some fault ∧
        (l.job item).events = [.lost item.name fault] := by
  rcases l.course_job item with ⟨hstuck, -⟩ | ⟨d, -, -, ⟨values, hyield, hc⟩ | ⟨fault, hyield, hc⟩⟩
  · rw [h] at hstuck
    exact absurd hstuck Bool.false_ne_true
  · refine .inl ⟨values, hyield, ?_, ?_⟩
    · simp only [fault?, hc]
    · simp only [Job.events, hc, item_job]
  · refine .inr ⟨fault, hyield, ?_, ?_⟩
    · simp only [fault?, hc]
    · simp only [Job.events, hc, item_job]

/-- The items that yield values, by name. -/
def produced : List (String × List α) :=
  l.selected.filterMap fun item => (l.yield? item).map (item.name, ·)

/-- The items whose job ends with a fault, by name. -/
def failed : List (String × Fault) :=
  l.selected.filterMap fun item => (l.fault? item).map (item.name, ·)

/-- As many items produce values as yield some, be it none at all. -/
lemma length_produced :
    l.produced.length = l.selected.countP fun item => (l.yield? item).isSome := by
  rw [produced, List.length_filterMap_eq_countP]
  exact List.countP_congr fun item _ => by rw [Option.isSome_map]

/-- Items that are not stuck fail iff they yield nothing. -/
lemma length_failed (h : ∀ item ∈ l.selected, l.isStuck item = false) :
    l.failed.length = l.selected.countP fun item => (l.yield? item).isNone := by
  rw [failed, List.length_filterMap_eq_countP]
  refine List.countP_congr fun item hitem => ?_
  rcases l.events_job_cases (h item hitem) with ⟨values, hyield, hfault, -⟩ |
    ⟨fault, hyield, hfault, -⟩ <;> simp [hyield, hfault]

/-- Selected items that are not stuck either produce values or fail. -/
lemma length_produced_add_length_failed (h : ∀ item ∈ l.selected, l.isStuck item = false) :
    l.produced.length + l.failed.length = l.selected.length := by
  rw [length_produced, length_failed l h,
    List.length_eq_countP_add_countP (fun item => (l.yield? item).isSome) (l := l.selected)]
  congr 1
  exact List.countP_congr fun item _ => by cases l.yield? item <;> simp

/-- The events of the jobs of selected items, none of which is stuck: one for each item. -/
lemma events_jobs_perm {items : List Item} (h : ∀ item ∈ items, l.isStuck item = false) :
    (items.flatMap fun item => (l.job item).events).Perm
      ((items.filterMap fun item => (l.yield? item).map (item.name, ·)).map
          (fun x => .loaded x.1 x.2) ++
        (items.filterMap fun item => (l.fault? item).map (item.name, ·)).map
          fun x => .lost x.1 x.2) := by
  induction items with
  | nil => exact List.Perm.refl _
  | cons item rest ih =>
    obtain ⟨hitem, hrest⟩ := List.forall_mem_cons.mp h
    have ih := ih hrest
    rw [List.flatMap_cons]
    rcases l.events_job_cases hitem with ⟨values, hyield, hfault, he⟩ | ⟨fault, hyield, hfault, he⟩
    · rw [he, List.filterMap_cons_some (by rw [hyield, Option.map_some]),
        List.filterMap_cons_none (by rw [hfault, Option.map_none])]
      exact ih.cons _
    · rw [he, List.filterMap_cons_none (by rw [hyield, Option.map_none]),
        List.filterMap_cons_some (by rw [hfault, Option.map_some])]
      exact (ih.cons _).trans List.perm_middle.symm

end Load

/-! ### The loads of the two kinds -/

namespace Source

variable {α : Type} (s : Source) (limits : Limits) (q : TagQuery)

/-- The load of the selected secrets. -/
def secretLoad (mapping : Mapping String α) : Load String α where
  kind := .secret
  limits := limits
  query := q
  fetch item := s.secret item.name
  mapping := mapping
  listing := s.listing .secret

/-- The load of the selected signing keys. -/
def keyLoad (mapping : Mapping SigningKey α) : Load SigningKey α where
  kind := .key
  limits := limits
  query := q
  fetch item := s.key item.name item.version
  mapping := mapping
  listing := s.listing .key

variable [BEq α]

/-- Loading secrets gives the report of the load of secrets. -/
lemma report_secretLoad (mapping : Mapping String α) :
    (s.secretLoad limits q mapping).report = s.loadSecrets limits q mapping := rfl

/-- Loading signing keys gives the report of the load of keys. -/
lemma report_keyLoad (mapping : Mapping SigningKey α) :
    (s.keyLoad limits q mapping).report = s.loadKeys limits q mapping := rfl

/-- A source of four items in two pages. Only the first secret is ever fetched to the end. -/
def stalling : Source where
  listing _ := .ok
    [{ content := .ok [.readable { name := "alpha" }, .readable { name := "bravo" }] },
      { content := .ok [.readable { name := "carol", version := "1" },
          .readable { name := "delta" }] }]
  secret name := if name = "alpha" then .ends 4 (.value "") else .hangs
  key _ _ := .hangs

end Source

/-! ### A load with every kind of trouble -/

namespace Load

/-- A load of five selected items with two workers and a timeout of 10 milliseconds. Two fetches end
in time and give values, one is cut off, one panics and one gives a fault; besides, an entry is
unreadable, an item is not selected, and the third page fails. -/
def troubled : Load String String where
  kind := .secret
  limits := { concurrency := 2, timeoutMillis := some 10 }
  query := .ofPairs [("team", "pay")]
  fetch item :=
    match item.name with
    | "alpha" => .ends 3 (.value "x,y")
    | "bravo" => .hangs
    | "carol" => .ends 4 (.panic none)
    | _ => .ends 0 (.fault ⟨.notFound, "secret"⟩)
  mapping := Mapping.commaSplit
  listing := .ok
    [{ delay := 1
       content := .ok [.readable (tagged "alpha"), .unreadable "mute" ⟨.internal, "no metadata"⟩,
          .readable { name := "delta" }, .readable (tagged "bravo")] },
      { content := .ok [.readable (tagged "carol"), .readable (tagged "alpha"),
          .readable (tagged "echo")] },
      { delay := 2, content := .error ⟨.externalService, "connection reset"⟩ }]
where
  tagged (name : String) : Item := { name, tags := some (.ofPairs [("team", "pay")]) }

end Load

end KeyIntake
