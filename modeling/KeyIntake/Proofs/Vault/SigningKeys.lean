import KeyIntake.Proofs.Load.Gathered
import KeyIntake.Proofs.Load.Survival
import KeyIntake.Proofs.Text.Basic
import KeyIntake.Proofs.Text.Digits
import KeyIntake.Proofs.Vault.Intake
import Mathlib.Data.List.Dedup
/-!
# Signing keys from the list to the keyring

The vault lists its signing keys by name, and each of them is looked up by its name. A load of all
of them holds one reference for each name that can be looked up, known by an identifier of its own,
and counts a fault for each time that another name is listed. A load with required tags asks for the
list alone, as signing keys have no tags.

A key that is asked for directly may be pinned to a version, which has to be an unsigned word.

## Main definitions

* `Client.readsKey`, `Client.keyRef` — whether a key can be looked up, and the reference to it.
* `Client.ServesKeys` — a source that serves the signing keys of a vault, in its own time.
* `Client.LoadsKeys` — what a load of the signing keys brings in.
* `Client.KeepsKeys` — what becomes of the signing keys of a vault.

## Main results

* `Load.values_report_perm` — what is kept if equality tells apart what is yielded.
* `Client.keepsKeys` — what becomes of the signing keys of any vault.
* `Client.keepsKeys_sample` — a load of keys of which one is listed twice and another one is gone.
-/

set_option relaxedAutoImplicit false
set_option autoImplicit false

namespace KeyIntake

/-! ### Loads whose values are told apart -/

namespace Load

variable {ι α : Type} [BEq α] {l : Load ι α} (hret : l.report.returned = true)

include hret

/-- The jobs of a load that returns yield what its selected items yield. -/
lemma flatMap_values_units : (l.units l.report).flatMap Running.values = l.yields := by
  have houtcome := congrArg (fun outcomes => (outcomes.map fun o => o.getD []).flatten)
    (outcome_units hret)
  simp only [List.map_map, Function.comp_def, ← List.flatMap_def] at houtcome
  exact houtcome

/-- The values that a load keeps are among those that its selected items yield. -/
lemma mem_yields_of_kept [EquivBEq α] {v : α} (hv : v ∈ l.report.harvest.values.values) :
    v ∈ l.yields := by
  rw [values_report, Distinct.mem_ofList_iff] at hv
  have hmem := List.mem_of_find?_eq_some hv
  rwa [(l.collected_perm.flatMap_right Running.values).mem_iff, flatMap_values_units hret] at hmem

/-- **A load that returns keeps each value once** if equality tells apart the values that its
selected items yield. -/
theorem values_report_perm [EquivBEq α] [DecidableEq α]
    (happart : ∀ v ∈ l.yields, ∀ v' ∈ l.yields, (v == v') = true → v = v') :
    l.report.harvest.values.values.Perm l.yields.dedup := by
  have hnodup : l.report.harvest.values.values.Nodup := by
    refine l.report.harvest.values.apart.imp fun {a b} hab heq => ?_
    rw [heq, BEq.rfl] at hab
    exact Bool.false_ne_true hab.symm
  refine (List.perm_ext_iff_of_nodup hnodup (List.nodup_dedup _)).mpr fun v => ?_
  rw [List.mem_dedup]
  refine ⟨mem_yields_of_kept hret, fun hv => ?_⟩
  have hkept : l.report.harvest.values.contains v = true := by
    rw [contains_report hret]
    exact List.any_eq_true.mpr ⟨v, hv, BEq.rfl⟩
  obtain ⟨v', hv', heq⟩ := List.any_eq_true.mp hkept
  rwa [← happart v' (mem_yields_of_kept hret hv') v hv heq]

end Load

/-! ### Identifiers of signing keys -/

namespace Client

/-- **The identifier of a signing key** is its resource below the endpoint without the slashes at
the end of this. -/
lemma keyId_eq (s : VaultSettings) :
    ∃ bare slashes : String, s.endpoint = bare ++ slashes ∧ (∀ x ∈ slashes.toList, x = '/') ∧
      bare.toList.getLast? ≠ some '/' ∧
      ∀ name, keyId s name = bare ++ "/v1/" ++ s.keyMount ++ "/keys/" ++ name := by
  obtain ⟨back, hsplit, hback⟩ := Text.exists_trimEndBy (· == '/') s.endpoint.toList
  refine ⟨String.ofList (Text.trimEndBy (· == '/') s.endpoint.toList), String.ofList back,
    ?_, ?_, ?_, fun name => rfl⟩
  · rw [← String.ofList_append, ← hsplit, String.ofList_toList]
  · intro x hx
    rw [String.toList_ofList] at hx
    exact beq_iff_eq.mp (hback x hx)
  · rw [String.toList_ofList]
    intro hlast
    exact absurd (Text.getLast?_trimEndBy _ hlast) (by decide)

/-- Different names have different identifiers. -/
lemma keyId_inj (s : VaultSettings) {a b : String} : keyId s a = keyId s b ↔ a = b := by
  constructor
  · intro h
    exact String.append_right_inj _ |>.mp h
  · rintro rfl
    rfl

variable (c : Client) (n : Network) (name : String) (version : Option String)

/-! ### Looking up a key -/

/-- The request for a signing key. -/
def keyRequest : Request := c.request .get (c.settings.keyMount ++ "/keys/" ++ name) none

/-- A signing key can be looked up: the reply to the request for it holds a signing key. -/
def readsKey : Bool :=
  ((n (c.keyRequest name)).data.bind Exchange.Content.keySort).isOk

/-- The reference to a signing key, pinned to a version or not. -/
def keyRef (version : Option Nat) : SigningKey where
  mount := c.settings.keyMount
  name := name
  version := version
  id := keyId c.settings name

variable {c n name version}

/-- A key whose version is refused is not asked for. -/
lemma signingKey_of_refused {fault : Fault} (h : pinned name version = .error fault) :
    c.signingKey name version = .done (.error fault) := by
  rw [signingKey, h]

section Asked

variable {v : Option Nat} (h : pinned name version = .ok v)

include h

/-- A key whose version is none or a word is asked for once. -/
lemma requests_signingKey : (c.signingKey name version).requests n = [c.keyRequest name] := by
  rw [signingKey, h]
  simp only [exchange, Dialogue.andThen, Dialogue.bind, Dialogue.requests]
  rw [← keyRequest]
  cases reading ("Failed to read transit key: " ++ name) Exchange.Content.keySort
    (n (c.keyRequest name)) <;> rfl

/-- **A key is found** iff it can be looked up. -/
lemma answer_signingKey_eq_ok_iff {k : SigningKey} :
    (c.signingKey name version).answer n = .ok k ↔
      c.readsKey n name = true ∧ k = c.keyRef name v := by
  rw [signingKey, h, readsKey]
  simp only [exchange, Dialogue.andThen, Dialogue.bind, Dialogue.answer, reading]
  rw [← keyRequest]
  cases (n (c.keyRequest name)).data.bind Exchange.Content.keySort with
  | error failure => simp [Dialogue.answer, Except.isOk, Except.toBool]
  | ok sort =>
    show Except.ok (c.keyRef name v) = Except.ok k ↔ _
    rw [Except.ok.injEq, eq_comm]
    exact (and_iff_right rfl).symm

end Asked

/-! ### Versions -/

/-- A key that is not to be pinned is not. -/
lemma pinned_none : pinned name none = .ok none := rfl

/-- A key is pinned to the word that its version denotes. -/
lemma pinned_of_denotes {text : String} {v : Nat} (h : Word.Denotes text v) :
    pinned name (some text) = .ok (some v) := by
  simp only [pinned, Word.ofText?_eq_some_iff.mpr h]

/-- A version that denotes no word is refused. -/
lemma pinned_of_not_denotes {text : String} (h : ∀ v, ¬ Word.Denotes text v) :
    pinned name (some text) =
      .error ⟨.validation, "Invalid transit key version '" ++ text ++ "' for " ++ name⟩ := by
  have hnone : Word.ofText? text.toList = none :=
    Option.eq_none_iff_forall_ne_some.mpr fun v hv => h v (Word.ofText?_eq_some_iff.mp hv)
  simp only [pinned, hnone]

/-- A version denotes one word at most. -/
lemma denotes_unique {text : String} {v w : Nat} (hv : Word.Denotes text v)
    (hw : Word.Denotes text w) : v = w :=
  Option.some.inj
    ((Word.ofText?_eq_some_iff.mpr hv).symm.trans (Word.ofText?_eq_some_iff.mpr hw))

/-- **A key is pinned to a number** iff the version that it is asked for with denotes this word. -/
lemma answer_signingKey_some_iff {text : String} {k : SigningKey} :
    (c.signingKey name (some text)).answer n = .ok k ↔
      ∃ v, Word.Denotes text v ∧ c.readsKey n name = true ∧ k = c.keyRef name (some v) := by
  by_cases hdenotes : ∃ v, Word.Denotes text v
  · obtain ⟨v, hv⟩ := hdenotes
    rw [answer_signingKey_eq_ok_iff (pinned_of_denotes hv)]
    constructor
    · intro h
      exact ⟨v, hv, h⟩
    · rintro ⟨w, hw, h⟩
      rwa [denotes_unique hv hw]
  · push Not at hdenotes
    rw [signingKey_of_refused (pinned_of_not_denotes hdenotes)]
    simp [Dialogue.answer, hdenotes]

/-! ### The listing of the signing keys -/

/-- The names that the vault lists are put on pages. -/
lemma answer_keyPages_of_ok {names : List String} (hnames : c.keyAnswer n = .ok names) :
    c.keyPages.answer n =
      .ok ((Paging.pages c.settings.pageLength names).map fun page =>
        { content := .ok (page.map fun name => .readable { name }) }) := by
  have hexchange : (c.keyNames "Failed to list transit keys").answer n = .ok names := by
    rw [keyNames, answer_exchange, ← keyAnswer, hnames]
    rfl
  rw [keyPages]
  simp only [Dialogue.bind_eq, Dialogue.answer_bind, Dialogue.pure_eq, hexchange]
  rfl

/-- Listing the signing keys is one request. -/
lemma requests_keyPages :
    c.keyPages.requests n = [c.request .list (c.settings.keyMount ++ "/keys") none] := by
  rw [keyPages]
  simp only [Dialogue.bind_eq, Dialogue.requests_bind]
  cases orNoNames ((c.keyNames "Failed to list transit keys").answer n) <;> rfl

/-! ### Sources that serve the keys -/

variable (c n)

/-- **A source serves the signing keys of a vault**: it lists what the vault lists, and when the
fetch of a key ends, which may take any time or never happen, it ends with what comes of asking the
vault for that key. -/
structure ServesKeys (s : Source) : Prop where
  listing : s.listing .key = c.keyPages.answer n
  fetch : ∀ name version, s.key name version = .hangs ∨
    ∃ delay, s.key name version =
      .ends delay (.ofExcept ((c.signingKey name version).answer n))

/-- The vault itself is such a source. -/
lemma servesKeys_source : c.ServesKeys n (c.source n) where
  listing := rfl
  fetch _ _ := .inr ⟨0, rfl⟩

/-! ### What a load of the keys goes through -/

variable {c n}

section Served

variable {s : Source} (hs : c.ServesKeys n s) {limits : Limits} {names : List String}
  (hnames : c.keyAnswer n = .ok names) {q : TagQuery}

include hs hnames

/-- The listing of the keys opens, and none of its pages fails. -/
lemma listing_of_serves : (s.signingKeyLoad limits q).listing =
    .ok ((Paging.pages c.settings.pageLength names).map fun page =>
      { content := .ok (page.map fun name => .readable { name }) }) :=
  hs.listing.trans (answer_keyPages_of_ok hnames)

/-- The load goes through the names that are listed, whatever the length of a page. -/
lemma entries_of_serves : (s.signingKeyLoad limits q).entries =
    names.map fun name => .readable { name } := by
  rw [Load.entries, Load.pages_of_ok _ (listing_of_serves hs hnames), Page.intact_map_ok,
    ← List.map_flatten, Paging.flatten_pages]

/-- All keys are selected if no tag is required, and none otherwise. -/
lemma selected_of_serves : (s.signingKeyLoad limits q).selected =
    if q.isEmpty then names.map fun name => { name } else [] := by
  have hselects : q.selects none = q.isEmpty := Bool.eq_iff_iff.mpr TagQuery.selects_none_iff
  rw [Load.selected, entries_of_serves hs hnames, TagQuery.selected, List.filterMap_map]
  show names.filterMap (fun name => if q.selects none then some ({ name } : Item) else none) = _
  rw [hselects]
  cases q.isEmpty
  · exact List.filterMap_eq_nil_iff.mpr fun _ _ => rfl
  · exact congrFun List.filterMap_eq_map names

/-- No page is lost. -/
lemma lostPage?_of_serves : (s.signingKeyLoad limits q).lostPage? = none := by
  rw [Load.lostPage?, Load.pages_of_ok _ (listing_of_serves hs hnames), Page.failure?_map_ok]

/-- No entry is unreadable. -/
lemma unreadable_of_serves : (s.signingKeyLoad limits q).unreadable = [] := by
  rw [Load.unreadable, entries_of_serves hs hnames, List.filterMap_map]
  exact List.filterMap_eq_nil_iff.mpr fun _ _ => rfl

end Served

/-- **What becomes of a key that is fetched to the end**: it yields the reference to it if it can be
looked up, and nothing otherwise. -/
lemma yield?_of_serves {s : Source} (hs : c.ServesKeys n s) {limits : Limits}
    (htime : limits.timeoutMillis = none) {q : TagQuery} {name : String}
    (hstuck : (s.signingKeyLoad limits q).isStuck { name } = false) :
    (s.signingKeyLoad limits q).yield? { name } =
      if c.readsKey n name then some [c.keyRef name none] else none := by
  rcases hs.fetch name none with hhangs | ⟨delay, hends⟩
  · have hfetch : (s.signingKeyLoad limits q).fetch { name } = .hangs := hhangs
    have hlimit : (s.signingKeyLoad limits q).limits.timeoutMillis = none := htime
    rw [Load.isStuck, hfetch, hlimit] at hstuck
    exact absurd hstuck (by simp)
  · have hfound {k : SigningKey} : (c.signingKey name none).answer n = .ok k ↔
        c.readsKey n name = true ∧ k = c.keyRef name none :=
      answer_signingKey_eq_ok_iff pinned_none
    cases hanswer : (c.signingKey name none).answer n with
    | ok k =>
      obtain ⟨hreads, rfl⟩ := hfound.mp hanswer
      rw [if_pos hreads, Source.yield?_keyLoad_iff]
      refine ⟨delay, c.keyRef name none, ?_, ?_, rfl⟩
      · rw [hends, hanswer]
        rfl
      · rw [htime]
        simp
    | error fault =>
      have hreads : ¬ c.readsKey n name = true := by
        intro hreads
        rw [hfound.mpr ⟨hreads, rfl⟩] at hanswer
        cases hanswer
      rw [if_neg hreads]
      refine Option.eq_none_iff_forall_ne_some.mpr fun values hvalues => ?_
      obtain ⟨delay', k, hvalue, -⟩ := Source.yield?_keyLoad_iff.mp hvalues
      rw [hends, hanswer] at hvalue
      cases hvalue

section Returned

variable {s : Source} (hs : c.ServesKeys n s) {limits : Limits}
  (htime : limits.timeoutMillis = none) {names : List String}
  (hnames : c.keyAnswer n = .ok names) {q : TagQuery} (hempty : q.isEmpty = true)
  (hret : (s.signingKeyLoad limits q).report.returned = true)

include hs htime hnames hempty hret

/-- What becomes of the names that are listed, one by one, in a load that returns. -/
lemma yield?_of_listed {name : String} (hname : name ∈ names) :
    (s.signingKeyLoad limits q).yield? { name } =
      if c.readsKey n name then some [c.keyRef name none] else none := by
  refine yield?_of_serves hs htime ?_
  refine (Load.returned_report_iff _).mp hret _ ?_
  rw [selected_of_serves hs hnames, if_pos hempty]
  exact List.mem_map_of_mem hname

/-- A load that returns goes through the references to the keys that can be looked up. -/
lemma yields_of_serves : (s.signingKeyLoad limits q).yields =
    (names.filter (c.readsKey n)).map fun name => c.keyRef name none := by
  rw [Load.yields, selected_of_serves hs hnames, if_pos hempty, List.flatMap_map,
    List.flatMap_congr (g := fun name =>
      (if c.readsKey n name then some [c.keyRef name none] else none).getD [])
      fun name hname => by rw [yield?_of_listed hs htime hnames hempty hret hname]]
  clear hnames
  induction names with
  | nil => rfl
  | cons name rest ih =>
    rw [List.flatMap_cons, ih, List.filter_cons]
    cases c.readsKey n name <;> rfl

/-- A load that returns counts a fault for each time that a key is listed which cannot be looked
up. -/
lemma faults_of_serves : (s.signingKeyLoad limits q).report.harvest.faults =
    names.countP fun name => !c.readsKey n name := by
  rw [Load.faults_report hret, Load.faults, unreadable_of_serves hs hnames,
    lostPage?_of_serves hs hnames, listing_of_serves hs hnames, selected_of_serves hs hnames,
    if_pos hempty, List.countP_map]
  have hcount : names.countP ((fun item => ((s.signingKeyLoad limits q).yield? item).isNone) ∘
      fun name => { name }) = names.countP fun name => !c.readsKey n name := by
    refine List.countP_congr fun name hname => ?_
    rw [Function.comp_apply, yield?_of_listed hs htime hnames hempty hret hname]
    cases c.readsKey n name <;> simp
  rw [hcount]
  simp [Except.isOk, Except.toBool]

/-- **The references that a load of the keys holds.** -/
lemma values_of_serves : (s.signingKeyLoad limits q).report.harvest.values.values.Perm
    ((names.filter (c.readsKey n)).dedup.map fun name => c.keyRef name none) := by
  have hinj : Function.Injective fun name => c.keyRef name none := by
    intro a b hab
    exact congrArg SigningKey.name hab
  rw [← List.dedup_map_of_injective hinj, ← yields_of_serves hs htime hnames hempty hret]
  refine Load.values_report_perm hret ?_
  rw [yields_of_serves hs htime hnames hempty hret]
  intro v hv v' hv' heq
  obtain ⟨name, -, rfl⟩ := List.mem_map.mp hv
  obtain ⟨name', -, rfl⟩ := List.mem_map.mp hv'
  -- references are compared by identifier, and different names have different ones
  have hid : keyId c.settings name = keyId c.settings name' := SigningKey.beq_iff.mp heq
  rw [(keyId_inj c.settings).mp hid]

end Returned

/-! ### What becomes of the keys -/

variable (c n)

/-- **What a load of the signing keys brings in**, the vault having listed these names. -/
structure LoadsKeys (names : List String) (q : TagQuery) (r : Report SigningKey) : Prop where
  /-- Without required tags, a load that returns holds one reference for each of the names that are
  listed whose key can be looked up. -/
  values : q.isEmpty = true → r.returned = true → r.harvest.values.values.Perm
    ((names.filter (c.readsKey n)).dedup.map fun name => c.keyRef name none)
  /-- It counts a fault for each time that a key is listed which cannot be looked up. -/
  faults : q.isEmpty = true → r.returned = true →
    r.harvest.faults = names.countP fun name => !c.readsKey n name
  /-- It asks for the list, and then for each of its names in order. -/
  requests : q.isEmpty = true → r.returned = true →
    (c.loadDialogues r).flatMap (Dialogue.requests n) =
      c.request .list (c.settings.keyMount ++ "/keys") none :: names.map c.keyRequest
  /-- With required tags, a load returns with nothing, and asks for the list alone. -/
  tagged : q.isEmpty = false → r.returned = true ∧ r.harvest.values.values = [] ∧
    r.harvest.faults = 0 ∧ r.starts = [] ∧
    (c.loadDialogues r).flatMap (Dialogue.requests n) =
      [c.request .list (c.settings.keyMount ++ "/keys") none]

/-- **What becomes of the signing keys of a vault.** -/
structure KeepsKeys : Prop where
  /-- The vault is a source that serves its own keys. -/
  serves : c.ServesKeys n (c.source n)
  /-- The loads of any such source without a timeout, whatever the limit on the fetches that go on
  at the same time, and whatever is selected. -/
  loads : ∀ s, c.ServesKeys n s → ∀ limits : Limits, limits.timeoutMillis = none →
    ∀ names, c.keyAnswer n = .ok names → ∀ sel r, (s.intake limits sel).keys = some r →
      c.LoadsKeys n names sel.query r
  /-- The identifier of a reference is made of the endpoint without the slashes at its end, the
  mount and the name. -/
  ids : ∃ bare slashes : String, c.settings.endpoint = bare ++ slashes ∧
    (∀ x ∈ slashes.toList, x = '/') ∧ bare.toList.getLast? ≠ some '/' ∧
    ∀ name version, (c.keyRef name version).id =
      bare ++ "/v1/" ++ c.settings.keyMount ++ "/keys/" ++ name
  /-- Different names have different identifiers. -/
  ids_inj : ∀ name name' version version',
    (c.keyRef name version).id = (c.keyRef name' version').id ↔ name = name'
  /-- A key that is asked for without a version is found iff it can be looked up. -/
  unpinned : ∀ name k, (c.signingKey name none).answer n = .ok k ↔
    c.readsKey n name = true ∧ k = c.keyRef name none
  /-- A key that is asked for with a version is found, pinned to a number, iff the version denotes
  this number as a word and the key can be looked up. -/
  pinned : ∀ name text k, (c.signingKey name (some text)).answer n = .ok k ↔
    ∃ v, Word.Denotes text v ∧ c.readsKey n name = true ∧ k = c.keyRef name (some v)
  /-- A key is looked up once if its version denotes a word. -/
  asked : ∀ name text v, Word.Denotes text v →
    (c.signingKey name (some text)).requests n = [c.keyRequest name]
  /-- Any other version is refused, and nothing is asked. -/
  refused : ∀ name text, (∀ v, ¬ Word.Denotes text v) →
    (c.signingKey name (some text)).requests n = [] ∧
      (c.signingKey name (some text)).answer n =
        .error ⟨.validation, "Invalid transit key version '" ++ text ++ "' for " ++ name⟩

variable {c n}

/-- A load of the signing keys asks for the list, and then for the keys whose fetches it starts. -/
lemma requests_loadDialogues {r : Report SigningKey} (hkind : r.kind = .key) :
    (c.loadDialogues r).flatMap (Dialogue.requests n) =
      c.request .list (c.settings.keyMount ++ "/keys") none ::
        (r.starts.map Start.item).flatMap fun item =>
          (c.signingKey item.name item.version).requests n := by
  rw [loadDialogues, hkind, List.flatMap_cons, Dialogue.requests_bind]
  simp only [List.flatMap_map, Dialogue.requests_bind, Dialogue.requests, List.append_nil]
  exact congrArg (· ++ _) requests_keyPages

/-- What the loads of a source that serves the keys bring in. -/
lemma loadsKeys_report {s : Source} (hs : c.ServesKeys n s) {limits : Limits}
    (htime : limits.timeoutMillis = none) {names : List String}
    (hnames : c.keyAnswer n = .ok names) (q : TagQuery) :
    c.LoadsKeys n names q (s.signingKeyLoad limits q).report where
  values hempty hret := values_of_serves hs htime hnames hempty hret
  faults hempty hret := faults_of_serves hs htime hnames hempty hret
  requests hempty hret := by
    rw [requests_loadDialogues (Load.kind_report _), Load.items_of_returned hret,
      selected_of_serves hs hnames, if_pos hempty, List.flatMap_map]
    simp only [requests_signingKey pinned_none]
    rw [← List.map_eq_flatMap]
  tagged hempty := by
    have hselected : (s.signingKeyLoad limits q).selected = [] := by
      rw [selected_of_serves hs hnames, hempty]
      rfl
    have hret : (s.signingKeyLoad limits q).report.returned = true := by
      rw [Load.returned_report_iff, hselected]
      simp
    have hstarts : (s.signingKeyLoad limits q).report.starts = [] := by
      have hitems := Load.items_of_returned hret
      rwa [hselected, List.map_eq_nil_iff] at hitems
    refine ⟨hret, ?_, ?_, hstarts, ?_⟩
    · refine List.eq_nil_iff_forall_not_mem.mpr fun k hk => ?_
      have hyields := Load.mem_yields_of_kept hret hk
      rw [Load.yields, hselected] at hyields
      cases hyields
    · rw [Load.faults_report hret, Load.faults, unreadable_of_serves hs hnames,
        lostPage?_of_serves hs hnames, listing_of_serves hs hnames, hselected]
      rfl
    · rw [requests_loadDialogues (Load.kind_report _), hstarts]
      rfl

/-- **What becomes of the signing keys of any vault.**

**Proof sketch.** The pages hold the names in order, whatever their length. Each name that is
fetched to the end yields the reference to its key or nothing, and references to different names
have different identifiers, so what is kept is one reference for each name. Keys have no tags, so a
query that requires one selects none of them. -/
theorem keepsKeys (c : Client) (n : Network) : c.KeepsKeys n where
  serves := c.servesKeys_source n
  loads s hs limits htime names hnames sel r hr := by
    rw [Source.keys_intake] at hr
    obtain ⟨-, hr⟩ := Option.ite_none_right_eq_some.mp hr
    rw [← Option.some.inj hr]
    exact loadsKeys_report hs htime hnames sel.query
  ids := by
    obtain ⟨bare, slashes, hsplit, hslashes, hbare, hid⟩ := keyId_eq c.settings
    exact ⟨bare, slashes, hsplit, hslashes, hbare, fun name version => hid name⟩
  ids_inj name name' version version' := keyId_inj c.settings
  unpinned name k := answer_signingKey_eq_ok_iff pinned_none
  pinned name text k := answer_signingKey_some_iff
  asked name text v hv := requests_signingKey (pinned_of_denotes hv)
  refused name text hno := by
    rw [signingKey_of_refused (pinned_of_not_denotes hno)]
    exact ⟨rfl, rfl⟩

/-- A vault with two signing keys, one of which is listed twice, and a name whose key is gone. -/
def keyNetwork : Network := .scripted
  [("http://vault/v1/transit/keys", .names ["signer", "gone", "backup", "signer"]),
    ("http://vault/v1/transit/keys/signer", .envelope (.tableOf [("type", .text "ed25519")])),
    ("http://vault/v1/transit/keys/backup", .envelope (.tableOf [("type", .text "rsa-2048")]))]

/-- A source that serves the keys of that vault in its own time. -/
def keySource : Source :=
  { sample.source keyNetwork with
    key := fun name version =>
      .ends name.length (.ofExcept ((sample.signingKey name version).answer keyNetwork)) }

/-- A selection of signing keys. -/
def keySelection : Selection where
  secrets := false
  keys := true

/-- A load of the keys, two at a time, returns with one reference for each of the two keys, counts a
fault for the one that is gone, and asks for each name as often as it is listed. -/
theorem keepsKeys_sample :
    sample.KeepsKeys keyNetwork ∧ sample.ServesKeys keyNetwork keySource ∧
      ∃ r, (keySource.intake { concurrency := 2 } keySelection).keys = some r ∧
        r.returned = true ∧
        r.harvest.values.values.Perm [sample.keyRef "signer" none, sample.keyRef "backup" none] ∧
        r.harvest.faults = 1 ∧
        (sample.loadDialogues r).flatMap (Dialogue.requests keyNetwork) =
          sample.request .list "transit/keys" none ::
            ["signer", "gone", "backup", "signer"].map sample.keyRequest := by
  have h := keepsKeys sample keyNetwork
  have hserves : sample.ServesKeys keyNetwork keySource :=
    ⟨rfl, fun name version => .inr ⟨name.length, rfl⟩⟩
  have hnames : sample.keyAnswer keyNetwork = .ok ["signer", "gone", "backup", "signer"] := by
    decide +kernel
  have hloads := h.loads keySource hserves { concurrency := 2 } rfl _ hnames keySelection _ rfl
  have hret : (keySource.signingKeyLoad { concurrency := 2 } {}).report.returned = true := by
    decide +kernel
  refine ⟨h, hserves, _, rfl, hret, ?_, ?_, hloads.requests rfl hret⟩
  · refine (hloads.values rfl hret).trans ?_
    decide +kernel
  · rw [hloads.faults rfl hret]
    decide +kernel

end Client

end KeyIntake
