import KeyIntake.Proofs.Settings.Layered
import KeyIntake.Proofs.Settings.Verbatim
/-!
# Texts that are set by variables

What becomes of the settings of a run when a variable sets one text among them: a credential, a
folder, a mount, a field or a required tag. If the value is read as a text the settings are the same
but for this text, and otherwise there are none any more. Where only tables are on the way to the
text, the new value is layered over the merged layers as if they had been a single one.

## Main definitions

* `Variable.Updates` — layering a value at a path changes what is read in a certain way.
* `TextSetting` — the texts that are set.

## Main results

* `Variable.merge_nest` — a value on top of two layers is on top of them merged.
* `Settings.load_set_eq_ok_iff` — the settings after a text was set.
-/

set_option relaxedAutoImplicit false
set_option autoImplicit false

namespace KeyIntake

namespace Variable

open KeyIntake.Tree (merge)

variable {key : String} {path : List String} {b e t u : Tree}

/-! ### A value at the end of a path -/

/-- A table with one field has nothing else. -/
lemma get?_singleton (key k : String) (t : Tree) :
    Entries.get? [(key, t)] k = if key = k then some t else none := rfl

/-- Layering a value at a path over a table changes one field of it. -/
lemma merge_table_nest (fields : List (String × Tree)) (key : String) (path : List String)
    (u : Tree) :
    merge (.table fields) (nest (key :: path) u) =
      .table (Entries.insert key
        (match Entries.get? fields key with
          | some old => merge old (nest path u)
          | none => nest path u) fields) := by
  rw [nest, Tree.merge_table, Tree.mergeFields]
  cases Entries.get? fields key with
  | none => rw [Tree.mergeFields]
  | some old => rw [Tree.mergeFields]

/-- **A value on top of two layers is on top of them merged**, where only tables are on the way.

**Proof sketch.** Induction on the path. Both tables have the same field at each key: that of the
path by the induction hypothesis, if both layers have it, and any other one as before. -/
theorem merge_nest (hb : b.Sorted) (he : e.Sorted) (hu : u.Sorted) (hleaf : u.isTable = false)
    (htables : (merge b e).TablesAlong path) :
    merge b (merge e (nest path u)) = merge (merge b e) (nest path u) := by
  induction path generalizing b e with
  | nil => rw [nest, Tree.merge_of_leaf hleaf, Tree.merge_of_leaf hleaf, Tree.merge_of_leaf hleaf]
  | cons key path ih =>
    cases hlower : b.isTable with
    | false => rw [Tree.merge_leaf hlower, Tree.merge_leaf hlower]
    | true =>
      obtain ⟨fb, rfl⟩ := Tree.exists_fields_of_isTable hlower
      have hupper : e.isTable = true := by
        rw [← Tree.isTable_merge]
        exact htables.1
      obtain ⟨fe, rfl⟩ := Tree.exists_fields_of_isTable hupper
      have hnest : Entries.Sorted [(key, nest path u)] := (sorted_nest hu (key :: path)).keys
      have hsub : ∀ v w, Entries.get? fb key = some v → Entries.get? fe key = some w →
          merge v (merge w (nest path u)) = merge (merge v w) (nest path u) := by
        intro v w hv hw
        refine ih (hb.field hv) (he.field hw) (htables.2 _ ?_)
        rw [Tree.merge_table, Tree.field?, Tree.get?_mergeFields he.keys, hv, hw]
        rfl
      rw [nest, Tree.merge_table, Tree.merge_table, Tree.merge_table, Tree.merge_table]
      congr 1
      refine Entries.Sorted.ext (Tree.sorted_keys_mergeFields hb.keys)
        (Tree.sorted_keys_mergeFields (Tree.sorted_keys_mergeFields hb.keys)) fun k => ?_
      rw [Tree.get?_mergeFields (Tree.sorted_keys_mergeFields he.keys), Tree.get?_mergeFields hnest,
        Tree.get?_mergeFields hnest, Tree.get?_mergeFields he.keys, get?_singleton]
      by_cases hk : key = k
      · subst hk
        rw [if_pos rfl]
        cases hv : Entries.get? fb key with
        | none => rw [Tree.none_overlay, Tree.none_overlay]
        | some v =>
          cases hw : Entries.get? fe key with
          | none => rw [Tree.none_overlay, Tree.overlay_none]
          | some w => simp only [Tree.some_overlay_some, hsub v w hv hw]
      · rw [if_neg hk, Tree.overlay_none, Tree.overlay_none]

/-- A value that is layered at a path is given there: itself, or a table if it is one. -/
lemma exists_given_merge_nest (path : List Place) (hu : u.Sorted) (e : Tree) :
    ∃ v, Tree.given [merge e (nest (Tree.keys path) u)] path = some v ∧
      v.isTable = u.isTable ∧ (u.isTable = false → v = u) := by
  induction path generalizing e with
  | nil => exact ⟨merge e u, rfl, Tree.isTable_merge, Tree.merge_of_leaf⟩
  | cons place path ih =>
    obtain ⟨old, hentry⟩ : ∃ old, (merge e (nest (Tree.keys (place :: path)) u)).part? place =
        some (merge old (nest (Tree.keys path) u)) := by
      rw [Tree.keys, List.map_cons, nest]
      cases he : e.isTable with
      | false =>
        refine ⟨.null, ?_⟩
        rw [Tree.merge_leaf he, Tree.merge_leaf rfl, Tree.part?, get?_singleton, if_pos rfl]
        rfl
      | true =>
        obtain ⟨fields, rfl⟩ := Tree.exists_fields_of_isTable he
        have hkeys : Entries.Sorted [(place.key, nest (Tree.keys path) u)] :=
          (sorted_nest hu (place.key :: Tree.keys path)).keys
        refine ⟨(Entries.get? fields place.key).getD .null, ?_⟩
        rw [Tree.merge_table, Tree.part?, Tree.get?_mergeFields]
        · rw [get?_singleton, if_pos rfl]
          cases Entries.get? fields place.key with
          | none =>
            rw [Option.getD_none, Tree.merge_leaf rfl, Tree.none_overlay]
            rfl
          | some old => rfl
        · exact hkeys
    rw [Tree.given_singleton, hentry, Option.bind_some]
    exact ih old

end Variable

namespace Tree

/-- What the highest layer has at a path is given. -/
lemma given_concat_of_given (layers : List Tree) {top u : Tree} {path : List Place}
    (h : given [top] path = some u) : given (layers ++ [top]) path = some u := by
  induction path generalizing layers top with
  | nil =>
    rw [given, List.getLast?_concat]
    exact h
  | cons place path ih =>
    rw [given_singleton] at h
    obtain ⟨v, hentry, hgiven⟩ := Option.bind_eq_some_iff.mp h
    obtain ⟨front, hfront⟩ : ∃ front, standing (layers ++ [top]) = front ++ [top] := by
      induction layers with
      | nil => exact ⟨[], rfl⟩
      | cons t rest ihl =>
        have hne : ∃ a l, rest ++ [top] = a :: l := by
          cases rest with
          | nil => exact ⟨top, [], rfl⟩
          | cons a rest => exact ⟨a, rest ++ [top], rfl⟩
        obtain ⟨a, l, hl⟩ := hne
        rw [List.cons_append, hl, standing]
        · split
          · exact ⟨t :: rest, by rw [List.cons_append, hl]⟩
          · exact hl ▸ ihl
        · simp
    rw [given, hfront, List.filterMap_append, List.filterMap_cons, hentry, List.filterMap_nil]
    exact ih _ hgiven

end Tree

/-! ### What is read anew -/

namespace Variable

variable {α σ : Type} {key : String} {path : List String} {t u : Tree}

/-- **Layering a value at a path changes what is read** from a tree with tables on the way. -/
def Updates (read : Tree → Reading α) (path : List String) (u : Tree) (change : α → α) : Prop :=
  ∀ (t : Tree) (x : α), t.Sorted → t.TablesAlong path → read t = .ok x →
    read (Tree.merge t (nest path u)) = .ok (change x)

/-- A text replaces what is read by itself. -/
lemma updates_asText (s : String) : Updates Tree.asText [] (.text s) fun _ => s := by
  intro t x _ _ _
  rw [nest, Tree.merge_of_leaf rfl]
  rfl

/-- A required tag is layered over the other ones. -/
lemma updates_ofTree (key s : String) :
    Updates TagQuery.ofTree [key] (.text s) fun q => q.require key s := by
  intro t q ht _ hread
  obtain ⟨fields, rfl, hfields⟩ := (TagQuery.ofTree_eq_ok_iff ht q).mp hread
  have hvalue : ∀ old : Option Tree,
      (match old with
        | some old => Tree.merge old (nest [] (.text s))
        | none => nest [] (.text s)) = .text s := by
    rintro (_ | old)
    · rfl
    · exact Tree.merge_of_leaf rfl
  rw [merge_table_nest, hvalue, TagQuery.ofTree_eq_ok_iff (ht.insert (.text s))]
  refine ⟨_, rfl, fun k => ?_⟩
  show _ = ((q.required.insert key s).get? k).map Tree.text
  rw [Entries.get?_insert, Dictionary.get?_insert, hfields k]
  by_cases hk : k = key
  · rw [if_pos hk, if_pos hk]
    rfl
  · rw [if_neg hk, if_neg hk]

/-- A tag can be required where none was. -/
lemma ofTree_nest (key s : String) :
    TagQuery.ofTree (nest [key] (.text s)) = .ok (TagQuery.require {} key s) := by
  have hempty : Tree.merge (.table []) (nest [key] (.text s)) = nest [key] (.text s) := by
    rw [merge_table_nest]
    rfl
  rw [← hempty]
  exact updates_ofTree key s (.table []) {} .empty ⟨rfl, by simp [Tree.field?, Entries.get?]⟩ rfl

section Field

variable {shape : Shape σ} {parts : List (Part σ)} {p : Part σ} (h : shape.Lawful parts)
  (hp : p ∈ parts) (strict : Bool) (hu : u.Sorted) (change : p.Value → p.Value)

include h hp hu

/-- **A part that is layered anew changes a record.** A part that is not there yet has to be read
from the new value alone. -/
lemma updates_field (hupdates : Updates p.read path u change)
    (hanew : p.key ∉ shape.required →
      p.read (nest path u) = .ok (change (p.get shape.defaults))) :
    Updates (shape.read strict) (p.key :: path) u fun s => p.put (change (p.get s)) s := by
  intro t s ht htables hread
  obtain ⟨fields, rfl⟩ := Tree.exists_fields_of_isTable htables.1
  obtain ⟨i, hi⟩ := List.getElem?_of_mem hp
  obtain ⟨hgiven, htakes⟩ := ((h.read_eq_ok_iff ht strict s).mp hread).2 i p hi
  rw [merge_table_nest]
  dsimp only [Tree.part?] at hgiven htakes
  cases hold : Entries.get? fields p.key with
  | none =>
    rw [hold, Part.takes_none] at htakes
    refine h.read_insert ht hread hp (sorted_nest hu path) ?_
    rw [htakes]
    exact hanew (hgiven hold)
  | some old =>
    rw [hold, Part.takes_some] at htakes
    have hsorted : old.Sorted := ht.field hold
    exact h.read_insert ht hread hp (hsorted.merge (sorted_nest hu path))
      (hupdates old _ hsorted (htables.2 old hold) htakes)

/-- A record from which nothing is required can be read from one part. -/
lemma read_nest_field (hrequired : shape.required = [])
    (hanew : p.read (nest path u) = .ok (change (p.get shape.defaults))) :
    shape.read strict (nest (p.key :: path) u) =
      .ok (p.put (change (p.get shape.defaults)) shape.defaults) := by
  have hempty : shape.read strict (.table []) = .ok shape.defaults := by
    rw [Shape.read, Shape.readEntries, Shape.missing?, hrequired]
    rfl
  exact h.read_insert .empty hempty hp (sorted_nest hu path) hanew

end Field

end Variable

/-! ### The texts -/

/-- A text among the settings: a credential, where secrets are kept and which field of them counts,
or the value of a required tag. -/
inductive TextSetting where
  | secretId
  | roleId
  | folder
  | secretMount
  | valueField
  | tag (key : String)
  deriving DecidableEq, Repr

namespace TextSetting

/-- The path of a text. -/
def path : TextSetting → List Place
  | secretId => [⟨"vault", 2⟩, ⟨"secret_id", 2⟩]
  | roleId => [⟨"vault", 2⟩, ⟨"role_id", 1⟩]
  | folder => [⟨"vault", 2⟩, ⟨"kv_prefix", 5⟩]
  | secretMount => [⟨"vault", 2⟩, ⟨"kv_mount", 4⟩]
  | valueField => [⟨"vault", 2⟩, ⟨"value_field", 6⟩]
  | tag key => Settings.tagPath key

/-- The settings with this text among them, all else being the same. -/
def put (x : String) (s : Settings) : TextSetting → Settings
  | secretId => { s with vault := { s.vault with secretId := x } }
  | roleId => { s with vault := { s.vault with roleId := x } }
  | folder => { s with vault := { s.vault with folder := x } }
  | secretMount => { s with vault := { s.vault with secretMount := x } }
  | valueField => { s with vault := { s.vault with valueField := x } }
  | tag key => { s with selection := { s.selection with query := s.selection.query.require key x } }

/-- The text of settings, if there is one. -/
def get? (s : Settings) : TextSetting → Option String
  | secretId => some s.vault.secretId
  | roleId => some s.vault.roleId
  | folder => some s.vault.folder
  | secretMount => some s.vault.secretMount
  | valueField => some s.vault.valueField
  | tag key => s.selection.query.required.get? key

variable {s : Settings} {x y : String}

/-- A text that was put among settings is found there. -/
lemma get?_put (setting : TextSetting) : get? (put x s setting) setting = some x := by
  cases setting with
  | tag key => exact (Dictionary.get?_insert _ _ _ _).trans (if_pos rfl)
  | _ => rfl

/-- So different texts make different settings. -/
lemma put_inj (setting : TextSetting) : put x s setting = put y s setting ↔ x = y := by
  constructor
  · intro heq
    have hget : get? (put x s setting) setting = get? (put y s setting) setting := by rw [heq]
    rwa [get?_put, get?_put, Option.some.injEq] at hget
  · rintro rfl
    rfl

/-- No text is needed for settings to make sense. -/
lemma isSensible_put (setting : TextSetting) : (put x s setting).IsSensible ↔ s.IsSensible := by
  cases setting <;> exact ⟨fun h => ⟨h.1, h.2, h.3, h.4⟩, fun h => ⟨h.1, h.2, h.3, h.4⟩⟩

/-- The parts of the vault's settings are scalars. -/
lemma mem_scalars {i : Nat} {p : Part VaultSettings} (hp : VaultSettings.parts[i]? = some p) :
    (⟨p.Value, [⟨"vault", 2⟩, ⟨p.key, i⟩], VaultSettings.shape.required.contains p.key, p.read,
      fun s => p.get s.vault⟩ : Scalar) ∈ Settings.scalars := by
  have hmem : (⟨p.Value, [⟨"vault", 2⟩, ⟨p.key, i⟩], VaultSettings.shape.required.contains p.key,
      p.read, fun s => p.get s.vault⟩ : Scalar) ∈
        Scalar.ofSection VaultSettings.shape ⟨"vault", 2⟩ Settings.vault VaultSettings.parts :=
    List.mem_map.mpr ⟨(p, i), List.mem_zipIdx_iff_getElem?.mpr hp, rfl⟩
  simp only [Settings.scalars, List.mem_append]
  exact .inl (.inl (.inl (.inr hmem)))

/-- What layers give for a text of the settings that come of them is a text. -/
lemma eq_text_of_given {layers : List Tree} (h : Settings.ComeOf layers s)
    (setting : TextSetting) {u : Tree} (hu : Tree.given layers setting.path = some u) :
    ∃ x, u = .text x := by
  have hvault : ∀ (i : Nat) (p : Part VaultSettings), VaultSettings.parts[i]? = some p →
      Tree.given layers [⟨"vault", 2⟩, ⟨p.key, i⟩] = some u → ∃ v, p.read u = .ok v := by
    intro i p hp hgiven
    have htakes := h.scalar _ (mem_scalars hp)
    dsimp only at htakes
    rw [hgiven] at htakes
    exact ⟨_, htakes⟩
  have htext : (∃ x, u.asText = .ok x) → ∃ x, u = .text x := by
    rintro ⟨x, hx⟩
    exact ⟨x, Tree.asText_eq_ok_iff.mp hx⟩
  cases setting with
  | secretId => exact htext (hvault 2 _ rfl hu)
  | roleId => exact htext (hvault 1 _ rfl hu)
  | folder => exact htext (hvault 5 _ rfl hu)
  | secretMount => exact htext (hvault 4 _ rfl hu)
  | valueField => exact htext (hvault 6 _ rfl hu)
  | tag key =>
    obtain ⟨x, -, hx⟩ := Option.map_eq_some_iff.mp ((h.tag key).trans hu)
    exact ⟨x, hx.symm⟩

open Variable in
/-- **A text that is layered over settings is put among them.** -/
theorem updates_put (setting : TextSetting) (x : String) :
    Updates (Settings.ofTree false) (Tree.keys setting.path) (.text x)
      fun s => put x s setting := by
  have hvault : ∀ (i : Nat) (p : Part VaultSettings) (v : p.Value),
      VaultSettings.parts[i]? = some p → Updates p.read [] (.text x) (fun _ => v) →
        p.read (.text x) = .ok v → Updates (Settings.ofTree false) ["vault", p.key] (.text x)
          fun s => { s with vault := p.put v s.vault } := by
    intro i p v hp hupdates hanew
    have hsection : Updates (VaultSettings.shape.read false) [p.key] (.text x) fun s => p.put v s :=
      updates_field VaultSettings.lawful (List.mem_of_getElem? hp) false (.text x) (fun _ => v)
        hupdates fun _ => hanew
    exact updates_field (Settings.lawful false) (List.mem_of_getElem? (i := 2) rfl) false (.text x)
      _ hsection fun hnone => absurd (by decide) hnone
  cases setting with
  | secretId => exact hvault 2 _ x rfl (updates_asText x) rfl
  | roleId => exact hvault 1 _ x rfl (updates_asText x) rfl
  | folder => exact hvault 5 _ x rfl (updates_asText x) rfl
  | secretMount => exact hvault 4 _ x rfl (updates_asText x) rfl
  | valueField => exact hvault 6 _ x rfl (updates_asText x) rfl
  | tag key =>
    have hpart : Selection.queryPart ∈ Selection.parts := List.mem_cons_self
    have hanew : Selection.shape.read false (nest ["tags", key] (.text x)) =
        .ok { query := TagQuery.require {} key x } :=
      read_nest_field Selection.lawful hpart false (.text x)
        (fun q : TagQuery => q.require key x) rfl (ofTree_nest key x)
    have hquery := updates_field Selection.lawful hpart false (.text x)
      (fun q : TagQuery => q.require key x) (updates_ofTree key x) fun _ => ofTree_nest key x
    exact updates_field (Settings.lawful false) (List.mem_of_getElem? (i := 4) rfl) false
      (.text x) _ hquery fun _ => hanew

end TextSetting

/-! ### Setting a text -/

namespace Settings

variable {directory : String} {files : FileTree} {e : Environment} {general special : Tree}
  {s : Settings} {name : String}

/-- **The settings after a text was set**, given those without it: the same with the text that the
value is read as, and none if the value is read as anything else.

**Proof sketch.** The value is on top of all layers, so what it is read as is what the layers give
for the text, which has to be a text. Being no table it is then on top of the merged layers, from
which the settings without it were read. -/
lemma load_set_eq_ok_iff (hgeneral : files.Holds (directory ++ "/default.toml") general)
    (hspecial : files.Holds (directory ++ "/" ++ environmentName e ++ ".toml") special)
    (hload : load directory files e = .ok s) (setting : TextSetting)
    (hname : Variable.path? name = some (Tree.keys setting.path)) (hnew : e.get? name = none)
    (htables : (Tree.layer [general, special, e.settings]).TablesAlong (Tree.keys setting.path))
    (value : String) (s' : Settings) :
    load directory files (e.set name value) = .ok s' ↔
      ∃ x, Variable.value value = .text x ∧ s' = setting.put x s := by
  have henvironment : environmentName (e.set name value) = environmentName e := by
    rw [environmentName, environmentName, Environment.get?_set_of_ne hnew]
    rintro rfl
    rw [show Variable.path? "APP_ENV" = none by decide] at hname
    simp at hname
  have hspecial' : files.Holds
      (directory ++ "/" ++ environmentName (e.set name value) ++ ".toml") special :=
    henvironment ▸ hspecial
  have hset : (e.set name value).settings = Tree.merge e.settings
      (Variable.nest (Tree.keys setting.path) (Variable.value value)) :=
    Environment.settings_set hnew hname
  obtain ⟨hread, hsensible⟩ := (load_eq_ok_iff hgeneral hspecial s).mp hload
  have hlower : (Tree.layer [general, special]).Sorted := by
    refine Tree.Sorted.layer ?_
    simp [hgeneral.sorted, hspecial.sorted]
  have hput : ∀ x, Variable.value value = .text x →
      load directory files (e.set name value) = .ok (setting.put x s) := by
    intro x hx
    rw [load_eq_ok_iff hgeneral hspecial', setting.isSensible_put, hset, hx]
    refine ⟨?_, hsensible⟩
    have hmerged := Variable.merge_nest hlower e.sorted_settings.2 (.text x) rfl htables
    have hsorted : (Tree.layer [general, special, e.settings]).Sorted :=
      hlower.merge e.sorted_settings.2
    show ofTree false (Tree.merge (Tree.layer [general, special]) _) = _
    rw [hmerged]
    exact setting.updates_put x _ s hsorted htables hread
  constructor
  · intro hs'
    obtain ⟨u, hgiven, htable, hleaf⟩ := Variable.exists_given_merge_nest setting.path
      (Variable.sorted_value value) e.settings
    have hcome := comeOf_of_load hgeneral hspecial' hs'
    rw [hset] at hcome
    obtain ⟨x, rfl⟩ := setting.eq_text_of_given hcome
      (Tree.given_concat_of_given [general, special] hgiven)
    have hx : Variable.value value = .text x := (hleaf htable.symm).symm
    refine ⟨x, hx, ?_⟩
    rw [hput x hx, Except.ok.injEq] at hs'
    exact hs'.symm
  · rintro ⟨x, hx, rfl⟩
    exact hput x hx

/-- **Which texts are set verbatim by a variable.** A value without blanks at its ends becomes the
text, all else being the same, iff it is not written in the notation of values; and in any case the
text is what the value is read as, without which there are no settings. -/
theorem load_set_text (hgeneral : files.Holds (directory ++ "/default.toml") general)
    (hspecial : files.Holds (directory ++ "/" ++ environmentName e ++ ".toml") special)
    (hload : load directory files e = .ok s) (setting : TextSetting)
    (hname : Variable.path? name = some (Tree.keys setting.path)) (hnew : e.get? name = none)
    (htables : (Tree.layer [general, special, e.settings]).TablesAlong (Tree.keys setting.path))
    (value : String) :
    (∀ s', load directory files (e.set name value) = .ok s' ↔
      ∃ x, Variable.value value = .text x ∧ s' = setting.put x s) ∧
    ((∀ c ∈ value.toList.head?, Text.isBlank c = false) →
      (∀ c ∈ value.toList.getLast?, Text.isBlank c = false) →
        (load directory files (e.set name value) = .ok (setting.put value s) ↔
          ¬ Variable.IsWritten value.toList.length value.toList)) := by
  have hiff := load_set_eq_ok_iff hgeneral hspecial hload setting hname hnew htables value
  refine ⟨hiff, fun hfirst hlast => ?_⟩
  rw [hiff, ← Variable.value_eq_text_iff hfirst hlast]
  constructor
  · rintro ⟨x, hx, hput⟩
    rw [hx, setting.put_inj.mp hput]
  · intro hvalue
    exact ⟨value, hvalue, rfl⟩

/-- An environment with all settings that are needed, there being no files. -/
def minimalEnvironment : Environment where
  bindings := [("KEYLOADER_APP_NAME", "app"), ("KEYLOADER_VAULT__ENDPOINT", "http://v")]

/-- The settings in that environment. -/
def minimalSettings : Settings where
  name := "app"
  vault := { endpoint := "http://v" }

/-- These are the settings. -/
lemma load_minimal : load "config" {} minimalEnvironment = .ok minimalSettings :=
  Except.eq_ok_of_toOption (by decide +kernel)

/-- A credential with all sorts of characters in it arrives as it is. -/
theorem load_set_text_secretId :
    Variable.path? "KEYLOADER_VAULT__SECRET_ID" = some (Tree.keys TextSetting.secretId.path) ∧
      minimalEnvironment.get? "KEYLOADER_VAULT__SECRET_ID" = none ∧
      load "config" {} (minimalEnvironment.set "KEYLOADER_VAULT__SECRET_ID" "s.1, [2]=\"x") =
        .ok { minimalSettings with vault :=
          { minimalSettings.vault with secretId := "s.1, [2]=\"x" } } := by
  have hname : Variable.path? "KEYLOADER_VAULT__SECRET_ID" =
      some (Tree.keys TextSetting.secretId.path) := by decide +kernel
  have hnew : minimalEnvironment.get? "KEYLOADER_VAULT__SECRET_ID" = none := by decide
  have hset := (load_set_text (.absent (by decide +kernel)) (.absent (by decide +kernel))
    load_minimal .secretId hname hnew (by decide +kernel) "s.1, [2]=\"x").2
      (fun c hc => by cases hc; decide) (fun c hc => by cases hc; decide)
  refine ⟨hname, hnew, hset.mpr fun hwritten => ?_⟩
  have hvalue : "s.1, [2]=\"x".toList = 's' :: ".1, [2]=\"x".toList := by decide
  rw [hvalue] at hwritten
  -- by its first letter it could only be a number
  cases hwritten with
  | number h _ => exact Variable.not_isNumber (by decide) _ h

/-- A file that gives the vault's settings as a list. -/
def listFiles : FileTree where
  files := [(["config", "default.toml"], "app_name = \"app\"\nvault = [\"http://v\"]\n")]

/-- Not every credential arrives as it is. There are no settings any more if it is a number, and
neither if the settings of the vault were given as a list. -/
theorem secretId_not_verbatim :
    (load "config" {} minimalEnvironment = .ok minimalSettings ∧
      ∀ s, load "config" {} (minimalEnvironment.set "KEYLOADER_VAULT__SECRET_ID" "12345") ≠ .ok s) ∧
    (∃ s, load "config" listFiles {} = .ok s) ∧
      ∀ s, load "config" listFiles (({} : Environment).set "KEYLOADER_VAULT__SECRET_ID" "plain") ≠
        .ok s := by
  have hnone : ∀ {r : Except LoadFault Settings}, r.toOption = none → ∀ s, r ≠ .ok s := by
    rintro r hr s rfl
    simp [Except.toOption] at hr
  refine ⟨⟨load_minimal, hnone (by decide +kernel)⟩, ?_, hnone (by decide +kernel)⟩
  cases hload : load "config" listFiles {} with
  | ok s => exact ⟨s, rfl⟩
  | error fault =>
    have hok : (load "config" listFiles {}).isOk = true := by decide +kernel
    rw [hload] at hok
    exact absurd hok (by simp [Except.isOk, Except.toBool])

end Settings

end KeyIntake
