import KeyIntake.Proofs.Settings.Parts
import KeyIntake.Proofs.Settings.Variable
import KeyIntake.Proofs.Toml.Sorted
import KeyIntake.Settings.Layers
import Mathlib.Data.List.TakeWhile
/-!
# Layered settings

Where the settings of a run come from. They are those of the merged layers if these make sense, and
each scalar among them has the value that the highest layer gives for it which the layers above have
not replaced as a whole. Required tags can be changed by a higher layer, not removed.

## Main definitions

* `FileTree.Holds` — what the file at a path says.
* `Settings.IsSensible`, `Settings.Defect.IsFirst` — settings that are accepted, and why others are
  not.
* `Scalar`, `Settings.scalars` — the scalars among the settings.
* `Settings.ComeOf` — settings that come of layers.
* `Settings.Layering` — how the settings of a run depend on its layers.

## Main results

* `Settings.ext_scalars` — settings are known by their scalars and the tags that they require.
* `Settings.comeOf_of_ofTree` — the settings of merged layers come of these layers.
* `Settings.layering_of_holds` — the settings of a run come of its files and its environment.
-/

set_option relaxedAutoImplicit false
set_option autoImplicit false

namespace KeyIntake

/-- The value of a success is what is left of it. -/
lemma Except.eq_ok_of_toOption {ε α : Type} {r : Except ε α} {x : α} (h : r.toOption = some x) :
    r = .ok x := by
  cases r with
  | ok y => exact congrArg Except.ok (Option.some.inj h)
  | error fault => exact absurd h.symm (Option.some_ne_none x)

/-! ### Files -/

/-- The file at a path says what a tree says. A file that is not there says nothing. -/
inductive FileTree.Holds (files : FileTree) (path : String) : Tree → Prop where
  | absent (hfind : files.find? path = none) : Holds files path (.table [])
  | document {found content : String} {t : Tree} (hfind : files.find? path = some (found, content))
      (hread : Toml.read? content = some t) : Holds files path t

namespace FileTree

variable {files : FileTree} {path : String} {t : Tree}

/-- A file says something if it is a document, and if it is not there. -/
lemma exists_holds (h : ((files.find? path).all fun f => (Toml.read? f.2).isSome) = true) :
    ∃ t, files.Holds path t := by
  cases hfind : files.find? path with
  | none => exact ⟨_, .absent hfind⟩
  | some f =>
    rw [hfind, Option.all_some] at h
    obtain ⟨t, ht⟩ := Option.isSome_iff_exists.mp h
    exact ⟨t, .document hfind ht⟩

/-- The layer of a file is what the file says. -/
lemma Holds.exists_ofFile (h : files.Holds path t) :
    ∃ origin, Layers.ofFile files path = .ok ⟨origin, t⟩ := by
  rw [Layers.ofFile]
  cases h with
  | absent hfind => exact ⟨.file path, by rw [hfind]⟩
  | @document found _ _ hfind hread => exact ⟨.file found, by simp only [hfind, hread]⟩

/-- Files say sorted tables. -/
lemma Holds.sorted (h : files.Holds path t) : t.isTable = true ∧ t.Sorted := by
  cases h with
  | absent => exact ⟨rfl, .empty⟩
  | document _ hread => exact Toml.sorted_read? hread

end FileTree

/-! ### Sense -/

namespace Settings

/-- **Settings that make sense**: there is an endpoint, workers have something to do, pages have
entries, and something is selected. -/
structure IsSensible (s : Settings) : Prop where
  endpoint : ∃ c ∈ s.vault.endpoint.toList, Text.isBlank c = false
  concurrency : 1 ≤ s.limits.concurrency
  pageSize : 1 ≤ s.vault.pageSize
  selection : s.selection.secrets = true ∨ s.selection.keys = true

namespace Defect

/-- Settings have a defect. -/
def In (d : Defect) (s : Settings) : Prop :=
  match d with
  | blankEndpoint => ∀ c ∈ s.vault.endpoint.toList, Text.isBlank c = true
  | noWorkers => s.limits.concurrency = 0
  | emptyPages => s.vault.pageSize = 0
  | nothingSelected => s.selection.secrets = false ∧ s.selection.keys = false

/-- The place of a defect in the order in which they are looked for. -/
def rank : Defect → Nat
  | blankEndpoint => 0
  | noWorkers => 1
  | emptyPages => 2
  | nothingSelected => 3

/-- A defect is the first one that settings have. -/
def IsFirst (d : Defect) (s : Settings) : Prop :=
  d.In s ∧ ∀ d' : Defect, d'.rank < d.rank → ¬ d'.In s

end Defect

variable {s : Settings}

/-- An endpoint from which trimming leaves nothing is blank. -/
lemma isEmpty_trimmed_iff :
    (Text.trimmed s.vault.endpoint).isEmpty = true ↔ Defect.blankEndpoint.In s := by
  rw [String.isEmpty_iff, Text.trimmed, ← String.toList_eq_nil_iff, String.toList_ofList]
  exact Text.trimBy_eq_nil_iff

/-- The defect that is found is the first one. -/
lemma defect?_eq_some_iff (d : Defect) : s.defect? = some d ↔ d.IsFirst s := by
  have hall : ∀ P : Defect → Prop,
      (∀ d, P d) ↔ P .blankEndpoint ∧ P .noWorkers ∧ P .emptyPages ∧ P .nothingSelected := by
    intro P
    exact ⟨fun h => ⟨h _, h _, h _, h _⟩, fun h d => by cases d <;> simp [h]⟩
  have hworkers : Defect.noWorkers.In s ↔ s.limits.concurrency = 0 := Iff.rfl
  have hpages : Defect.emptyPages.In s ↔ s.vault.pageSize = 0 := Iff.rfl
  have hselected : Defect.nothingSelected.In s ↔
      (!s.selection.secrets && !s.selection.keys) = true := by simp [Defect.In]
  unfold defect? Defect.IsFirst
  rw [hall]
  split_ifs with h₁ h₂ h₃ h₄ <;> rw [isEmpty_trimmed_iff] at h₁
  · cases d <;> simp [h₁, Defect.rank]
  · rw [← hworkers] at h₂
    cases d <;> simp [h₁, h₂, Defect.rank]
  · rw [← hworkers] at h₂
    rw [← hpages] at h₃
    cases d <;> simp [h₁, h₂, h₃, Defect.rank]
  · rw [← hworkers] at h₂
    rw [← hpages] at h₃
    rw [← hselected] at h₄
    cases d <;> simp [h₁, h₂, h₃, h₄, Defect.rank]
  · rw [← hworkers] at h₂
    rw [← hpages] at h₃
    rw [← hselected] at h₄
    cases d <;> simp [h₁, h₂, h₃, h₄]

/-- Settings without defects make sense. -/
lemma defect?_eq_none_iff : s.defect? = none ↔ s.IsSensible := by
  have hnone : s.defect? = none ↔ ¬ Defect.blankEndpoint.In s ∧ s.limits.concurrency ≠ 0 ∧
      s.vault.pageSize ≠ 0 ∧ ¬ (!s.selection.secrets && !s.selection.keys) = true := by
    unfold defect?
    split_ifs with h₁ h₂ h₃ h₄ <;> rw [isEmpty_trimmed_iff] at h₁ <;> simp [*]
  rw [hnone]
  constructor
  · rintro ⟨hblank, hworkers, hpages, hselected⟩
    refine ⟨by simpa [Defect.In] using hblank, Nat.pos_of_ne_zero hworkers,
      Nat.pos_of_ne_zero hpages, ?_⟩
    cases hsecrets : s.selection.secrets <;> simp [hsecrets] at hselected ⊢
    exact hselected
  · rintro ⟨⟨c, hc, hblank⟩, hworkers, hpages, hselected⟩
    refine ⟨fun hall => ?_, Nat.ne_of_gt hworkers, Nat.ne_of_gt hpages, ?_⟩
    · rw [hall c hc] at hblank
      simp at hblank
    · rcases hselected with h | h <;> simp [h]

end Settings

/-! ### Scalars -/

/-- A scalar among the settings of a run: its path, whether it has to be given, how its value is
read, and which one it is. -/
structure Scalar where
  Value : Type
  path : List Place
  required : Bool
  read : Tree → Reading Value
  get : Settings → Value

namespace Scalar

/-- **A scalar has the value that is given**, or its default if none is, which is then none that has
to be given. -/
def Takes (x : Scalar) (given : Option Tree) (s : Settings) : Prop :=
  match given with
  | some t => x.read t = .ok (x.get s)
  | none => x.required = false ∧ x.get s = x.get (Settings.shape false).defaults

/-- The scalars of a section: its parts, each of which stands in the section at the place that its
key and its number say. -/
def ofSection {σ : Type} (shape : Shape σ) (place : Place) (part : Settings → σ)
    (parts : List (Part σ)) : List Scalar :=
  parts.zipIdx.map fun p =>
    ⟨p.1.Value, [place, ⟨p.1.key, p.2⟩], shape.required.contains p.1.key, p.1.read,
      fun s => p.1.get (part s)⟩

end Scalar

namespace Settings

/-- The scalars among the settings. The query, which is the first part of a selection, is none. -/
def scalars : List Scalar :=
  [⟨String, [⟨"app_name", 0⟩], true, Tree.asText, Settings.name⟩,
    ⟨String, [⟨"app_env", 1⟩], false, Tree.asText, Settings.environment⟩] ++
  Scalar.ofSection VaultSettings.shape ⟨"vault", 2⟩ Settings.vault VaultSettings.parts ++
  Scalar.ofSection Limits.shape ⟨"loader", 3⟩ Settings.limits Limits.parts ++
  (Scalar.ofSection Selection.shape ⟨"selection", 4⟩ Settings.selection Selection.parts).tail ++
  Scalar.ofSection Telemetry.shape ⟨"telemetry", 5⟩ Settings.telemetry Telemetry.parts

/-- The path of a required tag. -/
def tagPath (key : String) : List Place := [⟨"selection", 4⟩, ⟨"tags", 0⟩, ⟨key, 0⟩]

/-- Settings are known by their scalars and the tags that they require. -/
theorem ext_scalars {s s' : Settings} (hscalars : ∀ x ∈ scalars, x.get s = x.get s')
    (htags : ∀ key, s.selection.query.required.get? key = s'.selection.query.required.get? key) :
    s = s' := by
  have hquery : s.selection.query = s'.selection.query :=
    congrArg TagQuery.mk (Dictionary.ext_get? htags)
  obtain ⟨name, environment, vault, limits, selection, telemetry⟩ := s
  obtain ⟨name', environment', vault', limits', selection', telemetry'⟩ := s'
  cases vault; cases limits; cases selection; cases telemetry
  cases vault'; cases limits'; cases selection'; cases telemetry'
  simp only [scalars, Scalar.ofSection, VaultSettings.parts, Limits.parts, Selection.parts,
    Selection.flags, Telemetry.parts] at hscalars
  simp_all

/-- No scalar is read from a table. -/
lemma read_table_ne_ok :
    ∀ x ∈ scalars, ∀ (fields : List (String × Tree)) (v : x.Value),
      x.read (.table fields) ≠ .ok v := by
  simp [scalars, Scalar.ofSection, VaultSettings.parts, Limits.parts, Selection.parts,
    Selection.flags, Telemetry.parts, Tree.asText, Tree.asBool, Tree.asWord, Tree.asWord?,
    Misread.here, Except.map]

/-- No scalar is the whole tree. -/
lemma path_ne_nil : ∀ x ∈ scalars, x.path ≠ [] := by
  simp [scalars, Scalar.ofSection, VaultSettings.parts, Limits.parts, Selection.parts,
    Selection.flags, Telemetry.parts]

/-! ### What merged layers hold -/

variable {t : Tree} {s : Settings}

/-- The scalars of a section that is given or not. -/
lemma takes_ofSection {σ : Type} {shape : Shape σ} {parts : List (Part σ)}
    (hshape : shape.Lawful parts) (ht : t.Sorted) (h : ofTree false t = .ok s) {n : Nat}
    {key : String} {part : Settings → σ} {put : σ → Settings → Settings}
    (hpart : (Settings.parts false)[n]? = some ⟨σ, key, shape.read false, part, put⟩)
    (hdefault : part (Settings.shape false).defaults = shape.defaults)
    (hneeded : key ∉ (Settings.shape false).required → shape.required = []) :
    ∀ x ∈ Scalar.ofSection shape ⟨key, n⟩ part parts, x.Takes (Tree.given [t] x.path) s := by
  intro x hx
  obtain ⟨⟨p, i⟩, hp, rfl⟩ := List.mem_map.mp hx
  rw [List.mem_zipIdx_iff_getElem?] at hp
  obtain ⟨hgiven, htakes⟩ := (((Settings.lawful false).read_eq_ok_iff ht false s).mp h).2 n _ hpart
  rw [Tree.given_singleton]
  dsimp only at hgiven htakes ⊢
  cases hentry : t.part? ⟨key, n⟩ with
  | none =>
    rw [hentry, Part.takes_none] at htakes
    have hnone : shape.required = [] := hneeded (hgiven hentry)
    refine ⟨by simp [hnone], ?_⟩
    dsimp only at htakes ⊢
    rw [htakes]
  | some u =>
    rw [hentry, Part.takes_some] at htakes
    have hu : u.Sorted := ht.part? hentry
    have hread := ((hshape.read_eq_ok_iff hu false (part s)).mp htakes).2 i p hp
    rw [Option.bind_some, Tree.given_singleton]
    cases hvalue : u.part? ⟨p.key, i⟩ with
    | none =>
      rw [hvalue, Part.takes_none, ← hdefault] at hread
      exact ⟨by simpa using hread.1 rfl, hread.2⟩
    | some v =>
      rw [hvalue, Part.takes_some] at hread
      exact hread.2

/-- **Which scalars are read from a tree.** -/
theorem takes_of_ofTree (ht : t.Sorted) (h : ofTree false t = .ok s) :
    ∀ x ∈ scalars, x.Takes (Tree.given [t] x.path) s := by
  have hparts := (((Settings.lawful false).read_eq_ok_iff ht false s).mp h).2
  intro x hx
  simp only [scalars, List.mem_append] at hx
  rcases hx with (((hx | hx) | hx) | hx) | hx
  · have hname : ∀ key n, Tree.given [t] [⟨key, n⟩] = t.part? ⟨key, n⟩ := by
      intro key n
      rw [Tree.given_singleton]
      cases t.part? ⟨key, n⟩ <;> rfl
    rcases List.mem_cons.mp hx with rfl | hx
    · obtain ⟨hgiven, htakes⟩ := hparts 0 _ rfl
      rw [hname]
      cases hentry : t.part? ⟨"app_name", 0⟩ with
      | none => exact absurd (by decide) (hgiven hentry)
      | some u =>
        rw [hentry] at htakes
        exact htakes
    · obtain rfl := List.mem_singleton.mp hx
      obtain ⟨-, htakes⟩ := hparts 1 _ rfl
      rw [hname]
      cases hentry : t.part? ⟨"app_env", 1⟩ with
      | none =>
        rw [hentry] at htakes
        exact ⟨rfl, htakes⟩
      | some u =>
        rw [hentry] at htakes
        exact htakes
  · exact takes_ofSection VaultSettings.lawful ht h (n := 2) rfl rfl (by decide) x hx
  · exact takes_ofSection Limits.lawful ht h (n := 3) rfl rfl (fun _ => rfl) x hx
  · exact takes_ofSection Selection.lawful ht h (n := 4) rfl rfl (fun _ => rfl) x
      (List.mem_of_mem_tail hx)
  · exact takes_ofSection Telemetry.lawful ht h (n := 5) rfl rfl (fun _ => rfl) x hx

/-- **Which tags are required by what is read from a tree.** -/
theorem given_tagPath_of_ofTree (ht : t.Sorted) (h : ofTree false t = .ok s) (key : String) :
    Tree.given [t] (tagPath key) = (s.selection.query.required.get? key).map Tree.text := by
  obtain ⟨-, htakes⟩ := (((Settings.lawful false).read_eq_ok_iff ht false s).mp h).2 4 _ rfl
  rw [tagPath, Tree.given_singleton]
  dsimp only at htakes
  cases hentry : t.part? ⟨"selection", 4⟩ with
  | none =>
    rw [hentry, Part.takes_none] at htakes
    have hquery : s.selection = {} := htakes
    rw [hquery]
    rfl
  | some u =>
    rw [hentry, Part.takes_some] at htakes
    have hu : u.Sorted := ht.part? hentry
    obtain ⟨-, hread⟩ := ((Selection.lawful.read_eq_ok_iff hu false _).mp htakes).2 0 _ rfl
    rw [Option.bind_some, Tree.given_singleton]
    cases hvalue : u.part? ⟨"tags", 0⟩ with
    | none =>
      rw [show Selection.queryPart.key = "tags" from rfl, hvalue, Part.takes_none] at hread
      have hquery : s.selection.query = {} := hread
      rw [hquery]
      rfl
    | some v =>
      rw [show Selection.queryPart.key = "tags" from rfl, hvalue, Part.takes_some] at hread
      obtain ⟨fields, rfl, hfields⟩ := (TagQuery.ofTree_eq_ok_iff (hu.part? hvalue) _).mp hread
      rw [Option.bind_some, Tree.given_singleton]
      show (Entries.get? fields key).bind (fun u => Tree.given [u] []) = _
      rw [hfields key]
      show ((s.selection.query.required.get? key).map Tree.text).bind _ = _
      cases s.selection.query.required.get? key <;> rfl

/-! ### What layers give -/

/-- A layer that says something about the selection, and there about tags, says it in tables. -/
def TagsInTables (t : Tree) : Prop :=
  ∀ u, t.field? "selection" = some u →
    u.isTable = true ∧ ∀ v, u.field? "tags" = some v → v.isTable = true

/-- **Settings that come of layers**, the lowest of which is the first. -/
structure ComeOf (layers : List Tree) (s : Settings) : Prop where
  /-- Each scalar has the value that the highest layer which still stands gives for it. -/
  scalar : ∀ x ∈ scalars, x.Takes (Tree.given layers x.path) s
  /-- Where there are only tables on the way to it, that is the highest layer that says anything. -/
  highest : ∀ x ∈ scalars, (∀ t ∈ layers, t.TablesAlong (Tree.keys x.path)) →
    Tree.given layers x.path = layers.reverse.findSome? fun t => t.at? (Tree.keys x.path)
  /-- So do the tags that are required. -/
  tag : ∀ key, (s.selection.query.required.get? key).map Tree.text =
    Tree.given layers (tagPath key)
  /-- Where tags are said in tables, the highest layer that has a tag gives its value. -/
  tag_highest : (∀ t ∈ layers, TagsInTables t) → ∀ key,
    (s.selection.query.required.get? key).map Tree.text =
      layers.reverse.findSome? fun t => t.at? ["selection", "tags", key]
  /-- Then the tags of all layers are required. -/
  tag_union : (∀ t ∈ layers, TagsInTables t) → ∀ key,
    (∃ value, s.selection.query.required.get? key = some value) ↔
      ∃ t ∈ layers, ∃ u, t.at? ["selection", "tags", key] = some u

/-- **The settings of merged layers come of these layers.**

**Proof sketch.** The settings are those that the merged tree gives as a single layer. No scalar and
no tag is a table, so merging did not change what is given for it. -/
theorem comeOf_of_ofTree {layers : List Tree} (htables : ∀ t ∈ layers, t.isTable = true)
    (hsorted : ∀ t ∈ layers, t.Sorted) (h : ofTree false (Tree.layer layers) = .ok s) :
    ComeOf layers s := by
  have hmerged : (Tree.layer layers).Sorted := Tree.Sorted.layer hsorted
  have hscalar : ∀ x ∈ scalars, x.Takes (Tree.given layers x.path) s := by
    intro x hx
    have htakes := takes_of_ofTree hmerged h x hx
    cases hpath : x.path with
    | nil => exact absurd hpath (path_ne_nil x hx)
    | cons place path =>
      rw [hpath] at htakes
      rwa [Tree.given_layer hsorted htables]
      intro fields hfields
      rw [hfields] at htakes
      exact read_table_ne_ok x hx fields _ htakes
  have htag : ∀ key, (s.selection.query.required.get? key).map Tree.text =
      Tree.given layers (tagPath key) := by
    intro key
    have hgiven := given_tagPath_of_ofTree hmerged h key
    rw [← hgiven, tagPath, Tree.given_layer hsorted htables]
    intro fields hfields
    rw [tagPath, hfields] at hgiven
    cases hget : s.selection.query.required.get? key <;> rw [hget] at hgiven <;> simp at hgiven
  have hhighest : (∀ t ∈ layers, TagsInTables t) → ∀ key,
      (s.selection.query.required.get? key).map Tree.text =
        layers.reverse.findSome? fun t => t.at? ["selection", "tags", key] := by
    intro hall key
    rw [htag, Tree.given_of_tablesAlong]
    · rfl
    · intro t ht
      refine ⟨htables t ht, fun u hu => ?_⟩
      obtain ⟨hselection, htags⟩ := hall t ht u hu
      exact ⟨hselection, fun v hv => ⟨htags v hv, fun _ _ => trivial⟩⟩
  refine ⟨hscalar, fun x _ => Tree.given_of_tablesAlong, htag, hhighest, fun hall key => ?_⟩
  have hkey := congrArg Option.isSome (hhighest hall key)
  rw [Option.isSome_map, Bool.eq_iff_iff, List.findSome?_isSome_iff] at hkey
  simp only [List.mem_reverse, Option.isSome_iff_exists] at hkey
  exact hkey

/-! ### Loading -/

/-- **How the settings of a run depend on its layers**: what the file for all environments and that
of the environment say, and the variables. -/
structure Layering (directory : String) (files : FileTree) (e : Environment)
    (general special : Tree) : Prop where
  /-- The settings are those of the merged layers if these make sense. -/
  load_eq_ok_iff : ∀ s, load directory files e = .ok s ↔
    ofTree false (Tree.layer [general, special, e.settings]) = .ok s ∧ s.IsSensible
  /-- Settings that make no sense are refused for their first defect. -/
  load_eq_defect_iff : ∀ s, ofTree false (Tree.layer [general, special, e.settings]) = .ok s →
    ∀ d, load directory files e = .error (.defect d) ↔ d.IsFirst s
  /-- The settings come of the layers. -/
  comeOf : ∀ s, load directory files e = .ok s → ComeOf [general, special, e.settings] s
  /-- The name of a variable is the mark and the keys of a path, with two underscores in between. -/
  path?_of_keys : ∀ keys : List String, keys ≠ [] →
    (∀ key ∈ keys, Variable.IsPlainKey key.toList) →
      Variable.path? (Variable.mark ++ "__".intercalate keys) = some (keys.map String.toLower)
  /-- Variables without the mark have no say, apart from the one that names the environment. -/
  load_congr : ∀ e' : Environment, e'.get? "APP_ENV" = e.get? "APP_ENV" →
    (e'.bindings.filter fun v => Variable.isMarked v.1) =
      (e.bindings.filter fun v => Variable.isMarked v.1) →
    load directory files e' = load directory files e

section Files

variable {directory : String} {files : FileTree} {e : Environment} {general special : Tree}
  (hgeneral : files.Holds (directory ++ "/default.toml") general)
  (hspecial : files.Holds (directory ++ "/" ++ environmentName e ++ ".toml") special)

include hgeneral hspecial

/-- Files that say something are loaded as the layers below the variables. -/
lemma load_of_holds :
    ∃ layers : List Layer, layers.map Layer.tree = [general, special, e.settings] ∧
      load directory files e = ofLayers layers := by
  obtain ⟨o₁, h₁⟩ := hgeneral.exists_ofFile
  obtain ⟨o₂, h₂⟩ := hspecial.exists_ofFile
  refine ⟨[⟨o₁, general⟩, ⟨o₂, special⟩, ⟨.environment, e.settings⟩], rfl, ?_⟩
  rw [load, h₁, h₂]

/-- **The settings of a run are those of the merged layers** if these make sense. -/
lemma load_eq_ok_iff (s : Settings) :
    load directory files e = .ok s ↔
      ofTree false (Tree.layer [general, special, e.settings]) = .ok s ∧ s.IsSensible := by
  obtain ⟨layers, hlayers, hload⟩ := load_of_holds hgeneral hspecial
  rw [hload, ofLayers, hlayers]
  cases hread : ofTree false (Tree.layer [general, special, e.settings]) with
  | error m => simp
  | ok s' =>
    dsimp only
    cases hdefect : s'.defect? with
    | none =>
      have hsensible := defect?_eq_none_iff.mp hdefect
      simp only [Except.ok.injEq]
      exact ⟨fun heq => ⟨heq, heq ▸ hsensible⟩, And.left⟩
    | some d =>
      refine iff_of_false (by simp) ?_
      rintro ⟨heq, hsensible⟩
      cases heq
      rw [defect?_eq_none_iff.mpr hsensible] at hdefect
      simp at hdefect

/-- Other settings are refused for their first defect. -/
lemma load_eq_defect_iff
    (hread : ofTree false (Tree.layer [general, special, e.settings]) = .ok s) (d : Defect) :
    load directory files e = .error (.defect d) ↔ d.IsFirst s := by
  obtain ⟨layers, hlayers, hload⟩ := load_of_holds hgeneral hspecial
  rw [hload, ofLayers, hlayers, hread, ← defect?_eq_some_iff]
  dsimp only
  cases s.defect? <;> simp

/-- The settings of a run come of its layers. -/
lemma comeOf_of_load (hload : load directory files e = .ok s) :
    ComeOf [general, special, e.settings] s := by
  have hall : ∀ t ∈ [general, special, e.settings], t.isTable = true ∧ t.Sorted := by
    simp [hgeneral.sorted, hspecial.sorted, e.sorted_settings]
  exact comeOf_of_ofTree (fun t ht => (hall t ht).1) (fun t ht => (hall t ht).2)
    ((load_eq_ok_iff hgeneral hspecial s).mp hload).1

/-- **The settings of a run come of its files and its environment.**

**Proof sketch.** Loading reads the settings of the merged layers and looks for the first defect.
That is all there is to the first two statements, and what the settings come of is known of all
merged layers. Variables without the mark are no part of what the environment holds. -/
theorem layering_of_holds : Layering directory files e general special where
  load_eq_ok_iff := load_eq_ok_iff hgeneral hspecial
  load_eq_defect_iff _ hread := load_eq_defect_iff hgeneral hspecial hread
  comeOf _ hload := comeOf_of_load hgeneral hspecial hload
  path?_of_keys _ := Variable.path?_of_keys
  load_congr e' henvironment hmarked := by
    have hname : environmentName e' = environmentName e := by
      rw [environmentName, environmentName, henvironment]
    rw [load, load, hname, Environment.settings_congr hmarked]

end Files

/-- Files for all environments and for production. -/
def sampleFiles : FileTree where
  files := [(["config", "default.toml"],
      "app_name = \"app\"\n[vault]\nendpoint = \"http://v\"\nkv_mount = \"kv\"\n" ++
        "[selection.tags]\nteam = \"a\"\nsite = \"s\"\n"),
    (["config", "production.toml"],
      "[vault]\nkv_mount = \"safe\"\n[selection.tags]\nsite = \"t\"\n")]

/-- An environment with one setting and one variable that is none. -/
def sampleEnvironment : Environment where
  bindings := [("APP_ENV", "production"), ("KEYLOADER_SELECTION__TAGS__TEAM", "b"), ("PATH", "/")]

/-- The settings of a run with these files in this environment. -/
def sampleLayered : Settings where
  name := "app"
  vault := { endpoint := "http://v", secretMount := "safe" }
  selection := { query := .ofPairs [("site", "t"), ("team", "b")] }

/-- The settings are read. -/
lemma load_sample : load "config" sampleFiles sampleEnvironment = .ok sampleLayered :=
  Except.eq_ok_of_toOption (by decide +kernel)

/-- Each layer has its say: the endpoint is that of the lowest one, the mount that of the one in the
middle, and of two required tags each of the upper ones changes one. -/
theorem layering_sample :
    ∃ general special, sampleFiles.Holds ("config" ++ "/default.toml") general ∧
      sampleFiles.Holds ("config" ++ "/" ++ environmentName sampleEnvironment ++ ".toml") special ∧
      Layering "config" sampleFiles sampleEnvironment general special ∧
      load "config" sampleFiles sampleEnvironment = .ok sampleLayered := by
  obtain ⟨general, hgeneral⟩ : ∃ t, sampleFiles.Holds ("config" ++ "/default.toml") t :=
    FileTree.exists_holds (by decide +kernel)
  obtain ⟨special, hspecial⟩ :
      ∃ t, sampleFiles.Holds ("config" ++ "/" ++ environmentName sampleEnvironment ++ ".toml") t :=
    FileTree.exists_holds (by decide +kernel)
  exact ⟨general, special, hgeneral, hspecial, layering_of_holds hgeneral hspecial, load_sample⟩

end Settings

end KeyIntake
