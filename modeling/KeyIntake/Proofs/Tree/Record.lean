import KeyIntake.Proofs.Tree.Layer
import KeyIntake.Tree.Reading
import Mathlib.Data.List.Nodup
/-!
# Records by their parts

What a record is made of when it is read from a tree: each part has the value that the tree gives
for its field, or else the default. A shape is lawful if its fields are those of parts that can be
told apart: what is put into one part is found there and leaves the others alone, and nothing else
is known of a record. For a lawful shape the reading of tables by key and that of lists by position
come to the same statement.

## Main definitions

* `Part` — a field with the way to look its value up in a record.
* `Shape.Lawful` — the fields of a shape are those of parts.
* `Part.Takes` — a part has the value that is given, or its default.
* `Shape.Fits` — the trees that a record can be read from.

## Main results

* `Shape.Lawful.read_eq_ok_iff` — which record is read from a tree.
* `Shape.Lawful.read_insert` — a record with one field given anew.
* `Tree.asTags_table_eq_ok_iff`, `Tree.exists_asTags_eq_ok_iff` — which texts are read from a table.
-/

set_option relaxedAutoImplicit false
set_option autoImplicit false

namespace KeyIntake

/-- A part of a record: a field of its shape together with the way to look its value up. -/
structure Part (σ : Type) where
  Value : Type
  key : String
  read : Tree → Reading Value
  get : σ → Value
  put : Value → σ → σ

namespace Part

variable {σ : Type} {p : Part σ} {s fallback : σ} {t : Tree}

/-- The field of a part. -/
def field (p : Part σ) : Field σ := .of p.key p.read p.put

/-- **The part of a record has the value that is given**, or that of a fallback if none is. -/
def Takes (p : Part σ) (given : Option Tree) (fallback s : σ) : Prop :=
  match given with
  | some t => p.read t = .ok (p.get s)
  | none => p.get s = p.get fallback

@[simp] lemma takes_some : p.Takes (some t) fallback s ↔ p.read t = .ok (p.get s) := Iff.rfl

@[simp] lemma takes_none : p.Takes none fallback s ↔ p.get s = p.get fallback := Iff.rfl

/-- Only the value of the part in the fallback matters. -/
lemma takes_congr {fallback' : σ} (h : p.get fallback = p.get fallback') (given : Option Tree) :
    p.Takes given fallback s ↔ p.Takes given fallback' s := by
  cases given with
  | none => rw [takes_none, takes_none, h]
  | some t => exact Iff.rfl

/-- The field of a part changes a record iff its value is read, and puts the value in place. -/
lemma field_read_cases (p : Part σ) (t : Tree) :
    (∃ m, p.read t = .error m ∧ p.field.read t = .error m) ∨
      ∃ x, p.read t = .ok x ∧ p.field.read t = .ok (p.put x) := by
  cases h : p.read t with
  | error m => exact .inl ⟨m, rfl, by simp [field, Field.of, h, Except.map]⟩
  | ok x => exact .inr ⟨x, rfl, by simp [field, Field.of, h, Except.map]⟩

end Part

namespace Shape

variable {σ : Type} {shape : Shape σ} {parts : List (Part σ)}

/-- **The fields of a shape are those of parts** that can be told apart. -/
structure Lawful (shape : Shape σ) (parts : List (Part σ)) : Prop where
  fields_eq : shape.fields = parts.map Part.field
  nodup : (parts.map Part.key).Nodup
  /-- Fields that have to be given belong to parts. -/
  required : ∀ key ∈ shape.required, key ∈ parts.map Part.key
  /-- What is put into a part is found there. -/
  get_put : ∀ p ∈ parts, ∀ x s, p.get (p.put x s) = x
  /-- What is put into another part is not. -/
  get_put_of_ne : ∀ p ∈ parts, ∀ q ∈ parts, p.key ≠ q.key → ∀ x s, p.get (q.put x s) = p.get s
  /-- A record is known by its parts. -/
  ext : ∀ s s', (∀ p ∈ parts, p.get s = p.get s') → s = s'

/-- The trees that a record can be read from: tables, and lists, which a strict reading refuses if
they are too long. -/
def Fits (strict : Bool) (shape : Shape σ) : Tree → Prop
  | .table _ => True
  | .list items => strict = true → items.length ≤ shape.fields.length
  | _ => False

namespace Lawful

variable (h : shape.Lawful parts)

include h

/-- The field of a key is that of the part with this key. -/
lemma find?_field (key : String) :
    (shape.fields.find? fun f => f.key == key) =
      (parts.find? fun p => p.key == key).map Part.field := by
  rw [h.fields_eq, List.find?_map]
  rfl

/-- A key has one part at most. -/
lemma eq_of_key_eq {p q : Part σ} (hp : p ∈ parts) (hq : q ∈ parts) (hkey : p.key = q.key) :
    p = q :=
  List.inj_on_of_nodup_map h.nodup hp hq hkey

/-- What is put into a part changes what another one takes only if it is the same part. -/
lemma takes_put {p q : Part σ} (hp : p ∈ parts) (hq : q ∈ parts) (hne : p.key ≠ q.key)
    (given : Option Tree) (x : q.Value) (s s' : σ) :
    p.Takes given (q.put x s) s' ↔ p.Takes given s s' :=
  Part.takes_congr (h.get_put_of_ne p hp q hq hne x s) given

/-! ### Tables -/

/-- **Which record is read from the fields of a table** on top of another one.

**Proof sketch.** Induction on the fields. A field that belongs to no part is skipped. The value of
any other one is put into its part, and as keys increase no later field has the same part. -/
lemma readEntries_eq_ok_iff {entries : List (String × Tree)} (hkeys : Entries.Sorted entries)
    (s s' : σ) :
    shape.readEntries s entries = .ok s' ↔
      ∀ p ∈ parts, p.Takes (Entries.get? entries p.key) s s' := by
  induction entries generalizing s with
  | nil =>
    rw [readEntries, Except.ok.injEq]
    constructor
    · rintro rfl p -
      exact Part.takes_none.mpr rfl
    · intro hparts
      exact h.ext s s' fun p hp => (Part.takes_none.mp (hparts p hp)).symm
  | cons entry rest ih =>
    obtain ⟨key, t⟩ := entry
    rw [readEntries, h.find?_field]
    cases hfind : parts.find? fun p => p.key == key with
    | none =>
      rw [List.find?_eq_none] at hfind
      show shape.readEntries s rest = .ok s' ↔ _
      rw [ih hkeys.tail]
      refine forall₂_congr fun p hp => ?_
      rw [Entries.get?_cons, if_neg fun heq => hfind p hp (beq_iff_eq.mpr heq.symm)]
    | some q =>
      have hq : q ∈ parts := List.mem_of_find?_eq_some hfind
      have hkey := List.find?_some hfind
      obtain rfl : q.key = key := by simpa using hkey
      rcases q.field_read_cases t with ⟨m, hread, hfield⟩ | ⟨x, hread, hfield⟩
      · simp only [Option.map_some, hfield]
        refine iff_of_false (by simp) fun hparts => ?_
        have hbad := hparts q hq
        rw [Entries.get?_cons, if_pos rfl, Part.takes_some, hread] at hbad
        simp at hbad
      · simp only [Option.map_some, hfield]
        rw [ih hkeys.tail]
        refine forall₂_congr fun p hp => ?_
        rw [Entries.get?_cons]
        by_cases hkey : q.key = p.key
        · obtain rfl := h.eq_of_key_eq hq hp hkey
          rw [if_pos rfl, hkeys.get?_tail, Part.takes_none, Part.takes_some, h.get_put q hq, hread,
            Except.ok.injEq, eq_comm]
        · rw [if_neg hkey, h.takes_put hp hq fun heq => hkey heq.symm]

/-! ### Lists -/

/-- **Which record is read from the items of a list** on top of another one, once the parts before
them are done with.

**Proof sketch.** Induction on the parts that are left, along the items. -/
lemma readItems_eq_ok_iff {done left : List (Part σ)} (hparts : parts = done ++ left) (n : Nat)
    (items : List Tree) (s s' : σ) :
    shape.readItems n s (left.map Part.field) items = .ok s' ↔
      (∀ p ∈ done, p.get s' = p.get s) ∧
        ∀ (i : Nat) (p : Part σ), left[i]? = some p →
          (items[i]? = none → p.key ∉ shape.required) ∧ p.Takes items[i]? s s' := by
  induction left generalizing done n items s with
  | nil =>
    rw [List.map_nil, readItems, Except.ok.injEq]
    constructor
    · rintro rfl
      exact ⟨fun p _ => rfl, by simp⟩
    · rintro ⟨hdone, -⟩
      rw [List.append_nil] at hparts
      exact h.ext s s' fun p hp => (hdone p (hparts ▸ hp)).symm
  | cons q left ih =>
    have hparts' : parts = (done ++ [q]) ++ left := by rw [hparts, List.append_assoc]; rfl
    have hq : q ∈ parts := by simp [hparts]
    have hne : ∀ p, p ∈ done ∨ p ∈ left → p ∈ parts ∧ p.key ≠ q.key := by
      intro p hp
      have hnodup := h.nodup
      rw [hparts, List.map_append, List.map_cons, List.nodup_middle, List.nodup_cons,
        ← List.map_append] at hnodup
      refine ⟨by rw [hparts]; rcases hp with hp | hp <;> simp [hp], fun heq => ?_⟩
      exact hnodup.1 (heq ▸ List.mem_map_of_mem (List.mem_append.mpr hp))
    cases items with
    | nil =>
      rw [List.map_cons, readItems]
      by_cases hrequired : q.key ∈ shape.required
      · rw [if_pos (by simpa [Part.field, Field.of] using hrequired)]
        refine iff_of_false (by simp [Misread.here]) ?_
        rintro ⟨-, hleft⟩
        exact (hleft 0 q rfl).1 rfl hrequired
      · rw [if_neg (by simpa [Part.field, Field.of] using hrequired), ih hparts']
        constructor
        · rintro ⟨hdone, hleft⟩
          refine ⟨fun p hp => hdone p (List.mem_append_left _ hp), fun i p hp => ?_⟩
          cases i with
          | zero =>
            cases hp
            exact ⟨fun _ => hrequired, hdone q (by simp)⟩
          | succ i => exact hleft i p hp
        · rintro ⟨hdone, hleft⟩
          refine ⟨fun p hp => ?_, fun i p hp => hleft (i + 1) p hp⟩
          rcases List.mem_append.mp hp with hp | hp
          · exact hdone p hp
          · obtain rfl := List.mem_singleton.mp hp
            exact (hleft 0 p rfl).2
    | cons t rest =>
      rw [List.map_cons, readItems]
      rcases q.field_read_cases t with ⟨m, hread, hfield⟩ | ⟨x, hread, hfield⟩
      · simp only [hfield]
        refine iff_of_false (by simp) ?_
        rintro ⟨-, hleft⟩
        have hbad := (hleft 0 q rfl).2
        rw [List.getElem?_cons_zero, Part.takes_some, hread] at hbad
        simp at hbad
      · simp only [hfield]
        rw [ih hparts']
        constructor
        · rintro ⟨hdone, hleft⟩
          refine ⟨fun p hp => ?_, fun i p hp => ?_⟩
          · obtain ⟨hmem, hkey⟩ := hne p (.inl hp)
            rw [hdone p (List.mem_append_left _ hp), h.get_put_of_ne p hmem q hq hkey]
          · cases i with
            | zero =>
              cases hp
              rw [List.getElem?_cons_zero, Part.takes_some, hread, hdone q (by simp),
                h.get_put q hq]
              simp
            | succ i =>
              obtain ⟨hmem, hkey⟩ := hne p (.inr (List.mem_of_getElem? hp))
              rw [List.getElem?_cons_succ, ← h.takes_put hmem hq hkey]
              exact hleft i p hp
        · rintro ⟨hdone, hleft⟩
          refine ⟨fun p hp => ?_, fun i p hp => ?_⟩
          · rcases List.mem_append.mp hp with hp | hp
            · obtain ⟨hmem, hkey⟩ := hne p (.inl hp)
              rw [hdone p hp, h.get_put_of_ne p hmem q hq hkey]
            · obtain rfl := List.mem_singleton.mp hp
              have hzero := (hleft 0 p rfl).2
              rw [List.getElem?_cons_zero, Part.takes_some, hread, Except.ok.injEq] at hzero
              rw [h.get_put p hq, hzero]
          · obtain ⟨hmem, hkey⟩ := hne p (.inr (List.mem_of_getElem? hp))
            rw [h.takes_put hmem hq hkey]
            exact hleft (i + 1) p hp

/-! ### Records -/

/-- The field that is missing in a table is one that has to be given. -/
lemma missing?_eq_none_iff (entries : List (String × Tree)) :
    shape.missing? entries = none ↔
      ∀ p ∈ parts, Entries.get? entries p.key = none → p.key ∉ shape.required := by
  rw [missing?, List.find?_eq_none]
  constructor
  · intro hmissing p _ hnone hrequired
    exact hmissing p.key hrequired (by rw [hnone]; rfl)
  · intro hparts key hrequired hnone
    obtain ⟨p, hp, rfl⟩ := List.mem_map.mp (h.required key hrequired)
    exact hparts p hp (Option.isNone_iff_eq_none.mp hnone) hrequired

/-- **Which record is read from a tree**: the tree is a table or a list, each part has the value
that the tree gives for it or else its default, and what has to be given is given. -/
theorem read_eq_ok_iff {t : Tree} (ht : t.Sorted) (strict : Bool) (s : σ) :
    shape.read strict t = .ok s ↔
      shape.Fits strict t ∧ ∀ (i : Nat) (p : Part σ), parts[i]? = some p →
      (t.part? ⟨p.key, i⟩ = none → p.key ∉ shape.required) ∧
        p.Takes (t.part? ⟨p.key, i⟩) shape.defaults s := by
  cases t with
  | table entries =>
    have hentries := h.readEntries_eq_ok_iff ht.keys shape.defaults
    have hmissing := h.missing?_eq_none_iff entries
    have hread : shape.read strict (.table entries) = .ok s ↔
        shape.readEntries shape.defaults entries = .ok s ∧ shape.missing? entries = none := by
      rw [read]
      cases hmade : shape.readEntries shape.defaults entries with
      | error m => simp
      | ok s' =>
        cases hkey : shape.missing? entries with
        | none => simp
        | some key => simp [Misread.here]
    rw [hread, hentries, hmissing]
    simp only [Fits, true_and, Tree.part?]
    constructor
    · rintro ⟨htakes, hgiven⟩ i p hp
      have hmem := List.mem_of_getElem? hp
      exact ⟨hgiven p hmem, htakes p hmem⟩
    · intro hparts
      refine ⟨fun p hp => ?_, fun p hp => ?_⟩
      · obtain ⟨i, hi⟩ := List.getElem?_of_mem hp
        exact (hparts i p hi).2
      · obtain ⟨i, hi⟩ := List.getElem?_of_mem hp
        exact (hparts i p hi).1
  | list items =>
    have hitems := h.readItems_eq_ok_iff (List.nil_append parts).symm 0 items shape.defaults
    have hread : shape.read strict (.list items) = .ok s ↔
        shape.Fits strict (.list items) ∧
          shape.readItems 0 shape.defaults shape.fields items = .ok s := by
      rw [read]
      cases hmade : shape.readItems 0 shape.defaults shape.fields items with
      | error m => simp
      | ok s' =>
        dsimp only
        split
        case isTrue hlong =>
          refine iff_of_false (by simp [Misread.here]) ?_
          rintro ⟨hfits, -⟩
          exact Nat.lt_irrefl _ (Nat.lt_of_lt_of_le hlong.2 (hfits hlong.1))
        case isFalse hlong =>
          have hfits : shape.Fits strict (.list items) := by
            intro hstrict
            exact Nat.le_of_not_lt fun hlt => hlong ⟨hstrict, hlt⟩
          simp [hfits]
    rw [hread, h.fields_eq, hitems]
    simp [Tree.part?]
  | _ => simp [read, Misread.here, Fits]

/-- **A record with one field given anew** has that value in its part. -/
theorem read_insert {entries : List (String × Tree)} (ht : (Tree.table entries).Sorted)
    {strict : Bool} {s : σ} (hread : shape.read strict (.table entries) = .ok s) {p : Part σ}
    (hp : p ∈ parts) {u : Tree} (hu : u.Sorted) {x : p.Value} (hx : p.read u = .ok x) :
    shape.read strict (.table (Entries.insert p.key u entries)) = .ok (p.put x s) := by
  rw [h.read_eq_ok_iff ht] at hread
  rw [h.read_eq_ok_iff (ht.insert hu)]
  refine ⟨trivial, fun i q hq => ?_⟩
  have hmem := List.mem_of_getElem? hq
  obtain ⟨hgiven, htakes⟩ := hread.2 i q hq
  simp only [Tree.part?] at hgiven htakes ⊢
  rw [Entries.get?_insert]
  by_cases hkey : q.key = p.key
  · obtain rfl := h.eq_of_key_eq hmem hp hkey
    rw [if_pos rfl, Part.takes_some, hx, h.get_put q hp]
    simp
  · rw [if_neg hkey]
    refine ⟨hgiven, ?_⟩
    cases hget : Entries.get? entries q.key with
    | none =>
      rw [hget, Part.takes_none] at htakes
      rw [Part.takes_none, h.get_put_of_ne q hmem p hp hkey, htakes]
    | some v =>
      rw [hget, Part.takes_some] at htakes
      rw [Part.takes_some, h.get_put_of_ne q hmem p hp hkey, htakes]

end Lawful

end Shape

/-! ### Tables of texts -/

namespace Tree

/-- A tree is read as a text iff it is that text. -/
lemma asText_eq_ok_iff {t : Tree} {x : String} : t.asText = .ok x ↔ t = text x := by
  cases t <;> simp [asText, Misread.here]

/-- The texts of fields, on top of those read so far. -/
lemma textFields_eq_ok_iff {fields : List (String × Tree)} (hkeys : Entries.Sorted fields)
    (read d : Dictionary String) :
    textFields read fields = .ok d ↔
      ∀ k, match Entries.get? fields k with
        | some t => (d.get? k).map text = some t
        | none => d.get? k = read.get? k := by
  induction fields generalizing read with
  | nil =>
    rw [textFields, Except.ok.injEq]
    exact ⟨fun heq k => heq ▸ rfl, fun hget => Dictionary.ext_get? fun k => (hget k).symm⟩
  | cons field rest ih =>
    obtain ⟨key, t⟩ := field
    rw [textFields]
    cases ht : t.asText with
    | error m =>
      refine iff_of_false (by simp) fun hget => ?_
      have hkey := hget key
      rw [Entries.get?_cons, if_pos rfl] at hkey
      obtain ⟨x, -, hx⟩ := Option.map_eq_some_iff.mp hkey
      rw [asText_eq_ok_iff.mpr hx.symm] at ht
      simp at ht
    | ok x =>
      obtain rfl := asText_eq_ok_iff.mp ht
      show textFields (read.insert key x) rest = .ok d ↔ _
      rw [ih hkeys.tail]
      refine forall_congr' fun k => ?_
      rw [Entries.get?_cons, Dictionary.get?_insert]
      by_cases hk : key = k
      · subst hk
        rw [if_pos rfl, if_pos rfl, hkeys.get?_tail]
        simp
      · rw [if_neg hk, if_neg fun heq => hk heq.symm]

/-- **Which texts are read from a table**: the same keys have these texts as values. -/
theorem asTags_table_eq_ok_iff {fields : List (String × Tree)} (hkeys : Entries.Sorted fields)
    (d : Dictionary String) :
    (table fields).asTags = .ok d ↔ ∀ k, Entries.get? fields k = (d.get? k).map text := by
  rw [asTags, textFields_eq_ok_iff hkeys]
  refine forall_congr' fun k => ?_
  cases Entries.get? fields k with
  | none => cases d.get? k <;> simp
  | some t => exact eq_comm

/-- No texts are read from anything else. -/
theorem asTags_eq_ok_iff {t : Tree} (ht : t.Sorted) (d : Dictionary String) :
    t.asTags = .ok d ↔ ∃ fields, t = table fields ∧
      ∀ k, Entries.get? fields k = (d.get? k).map text := by
  cases t with
  | table fields => rw [asTags_table_eq_ok_iff ht.keys]; simp
  | _ => simp [asTags, Misread.here]

/-- **Texts are read from a table** iff all its values are texts. -/
theorem exists_asTags_eq_ok_iff {fields : List (String × Tree)} (hkeys : Entries.Sorted fields) :
    (∃ d, (table fields).asTags = .ok d) ↔
      ∀ k t, Entries.get? fields k = some t → ∃ s, t = text s := by
  have hread : ∀ read : Dictionary String, (∀ p ∈ fields, ∃ s, p.2 = text s) →
      ∃ d, textFields read fields = .ok d := by
    clear hkeys
    intro read hall
    induction fields generalizing read with
    | nil => exact ⟨read, rfl⟩
    | cons p rest ih =>
      obtain ⟨key, t⟩ := p
      obtain ⟨s, rfl⟩ : ∃ s, t = text s := hall (key, t) List.mem_cons_self
      exact ih _ fun q hq => hall q (List.mem_cons_of_mem _ hq)
  constructor
  · rintro ⟨d, hd⟩ k t ht
    have hk := (textFields_eq_ok_iff hkeys .empty d).mp hd k
    rw [ht] at hk
    obtain ⟨s, -, hs⟩ := Option.map_eq_some_iff.mp hk
    exact ⟨s, hs.symm⟩
  · intro hall
    refine hread .empty ?_
    rintro ⟨k, t⟩ hmem
    exact hall k t (hkeys.mem_iff.mp hmem)

end Tree

end KeyIntake
