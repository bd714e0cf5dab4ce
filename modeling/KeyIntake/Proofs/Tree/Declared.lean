import KeyIntake.Proofs.TagQuery
import KeyIntake.Proofs.Tree.Json
import KeyIntake.Proofs.Tree.Record
/-!
# Declared types

Which JSON values have a type, and what each of them stands for. A record is declared by what it is
when nothing is given, by its members, and by the keys that have to be given; it is a table, or a
list of as many members as are wanted in the order of their declaration. What a value of a record
stands for is the standard record with the members replaced that the value gives.

A shape follows a declaration if its parts are read as the members are declared, and if it has the
same defaults and the same keys that have to be given. It has both apart from the declaration, so
that the two may differ.

## Main definitions

* `Declared` — a declared type, and the types of values without members.
* `Declaration`, `Declaration.type` — a declared record, and its type.
* `Declared.ReadBy` — values are read as the type says.
* `Shape.Follows` — a shape does as a declaration says.
* `Declaration.KeptBy` — what it comes to that a shape does so.

## Main results

* `Shape.Follows.readBy` — records are read as they are declared.
* `Shape.Follows.keptBy` — the same for tables and lists, with what is ignored.
-/

set_option relaxedAutoImplicit false
set_option autoImplicit false

namespace KeyIntake

/-! ### Types -/

/-- A declared type: the trees that have it, and what each of them stands for. Of the other trees
nothing is said. -/
structure Declared (α : Type) where
  Has : Tree → Prop
  value : Tree → α

namespace Declared

variable {α : Type}

/-- **Values are read as the type says**: those that have it, and as what they stand for. -/
def ReadBy (type : Declared α) (read : Tree → Reading α) : Prop :=
  ∀ t : Tree, t.IsJson → ∀ x, read t = .ok x ↔ type.Has t ∧ type.value t = x

/-- A text. -/
def text : Declared String where
  Has t := ∃ s, t = .text s
  value
    | .text s => s
    | _ => ""

/-- A truth value. -/
def flag : Declared Bool where
  Has t := ∃ b, t = .bool b
  value
    | .bool b => b
    | _ => false

/-- A word. -/
def word : Declared Nat where
  Has t := ∃ n < Word.limit, t = .unsigned n
  value
    | .unsigned n => n
    | _ => 0

/-- A word or null. -/
def optionalWord : Declared (Option Nat) where
  Has t := t = .null ∨ word.Has t
  value
    | .unsigned n => some n
    | _ => none

lemma text_readBy : text.ReadBy Tree.asText := by
  intro t _ x
  cases t <;> simp [text, Tree.asText, Misread.here]

lemma flag_readBy : flag.ReadBy Tree.asBool := by
  intro t _ x
  cases t <;> simp [flag, Tree.asBool, Misread.here]

/-- A whole number of a JSON value is a word, or else negative. -/
lemma word_readBy (wanted : Wanted) : word.ReadBy (Tree.asWord wanted) := by
  intro t ht x
  cases ht with
  | unsigned hword => simp [word, Tree.asWord, hword]
  | signed hnegative => simp [word, Tree.asWord, Misread.here, Int.not_le.mpr hnegative]
  | _ => simp [word, Tree.asWord, Misread.here]

lemma optionalWord_readBy (wanted : Wanted) : optionalWord.ReadBy (Tree.asWord? wanted) := by
  intro t ht x
  cases ht with
  | unsigned hword => simp [optionalWord, word, Tree.asWord?, Tree.asWord, Except.map, hword]
  | signed hnegative =>
    simp [optionalWord, word, Tree.asWord?, Tree.asWord, Misread.here, Except.map,
      Int.not_le.mpr hnegative]
  | _ => simp [optionalWord, word, Tree.asWord?, Tree.asWord, Misread.here, Except.map]

end Declared

/-! ### Records -/

/-- A member of a record as it is declared: its key and its type, and where its value goes. -/
structure Member (σ : Type) where
  Value : Type
  key : String
  type : Declared Value
  put : Value → σ → σ

/-- A record as it is declared: what it is when nothing is given, its members in order, and the keys
that have to be given. -/
structure Declaration (σ : Type) where
  standard : σ
  members : List (Member σ)
  required : List String := []

namespace Member

variable {σ : Type}

/-- The record with this member replaced by what is given for it, if anything is. -/
def replace (m : Member σ) (given : Option Tree) (s : σ) : σ :=
  match given with
  | some t => m.put (m.type.value t) s
  | none => s

/-- What is given has the type of the member; nothing is given only if nothing has to be. -/
def Admits (m : Member σ) (required : List String) (given : Option Tree) : Prop :=
  match given with
  | some t => m.type.Has t
  | none => m.key ∉ required

/-- The record with the members replaced that a tree gives, their numbers being from `n` on. -/
def replaceAll (t : Tree) (n : Nat) : List (Member σ) → σ → σ
  | [], s => s
  | m :: members, s => replaceAll t (n + 1) members (m.replace (t.part? ⟨m.key, n⟩) s)

end Member

namespace Tree

/-- Keys that have something beside them are keys. -/
lemma map_fst_zip_sublist (keys : List String) (items : List Tree) :
    ((keys.zip items).map Prod.fst).Sublist keys := by
  induction keys generalizing items with
  | nil => simp
  | cons key keys ih =>
    cases items with
    | nil => simp
    | cons t items => exact (ih items).cons_cons key

/-- A key of a table has what stands beside it, if the keys are different. -/
lemma part?_tableOf_zip {keys : List String} (hkeys : keys.Nodup) {i : Nat} {key : String}
    (hkey : keys[i]? = some key) (items : List Tree) (position : Nat) :
    (tableOf (keys.zip items)).part? ⟨key, position⟩ = items[i]? := by
  have hnodup : ((keys.zip items).map Prod.fst).Nodup :=
    hkeys.sublist (map_fst_zip_sublist keys items)
  refine Option.ext fun t => ?_
  have hget : (tableOf (keys.zip items)).part? ⟨key, position⟩ =
      Dictionary.lastValue? (keys.zip items) key := Dictionary.get?_ofPairs _ key
  rw [hget, Dictionary.lastValue?_eq_some_iff hnodup, List.mem_iff_getElem?]
  simp only [List.getElem?_zip_eq_some]
  constructor
  · rintro ⟨j, hj, hitem⟩
    obtain ⟨hlt, -⟩ := List.getElem?_eq_some_iff.mp hkey
    obtain rfl : i = j := (List.getElem?_inj hlt hkeys).mp (hkey.trans hj.symm)
    exact hitem
  · exact fun hitem => ⟨i, hkey, hitem⟩

/-- A table, or a list of so many items at most. -/
def HoldsFields (most : Nat) : Tree → Prop
  | table _ => True
  | list items => items.length ≤ most
  | _ => False

end Tree

namespace Declaration

variable {σ : Type}

/-- The keys of the members in the order of their declaration. -/
def keys (d : Declaration σ) : List String := d.members.map Member.key

/-- **The type of a declared record.** A value of it gives to each member what has the type of the
member, or nothing where nothing has to be given. It stands for the standard record with the members
replaced that it gives. -/
def type (d : Declaration σ) : Declared σ where
  Has t := t.HoldsFields d.members.length ∧ ∀ (i : Nat) (m : Member σ), d.members[i]? = some m →
    m.Admits d.required (t.part? ⟨m.key, i⟩)
  value t := Member.replaceAll t 0 d.members d.standard

/-- **A shape does as a declaration says**, on all JSON values. -/
structure KeptBy (d : Declaration σ) (shape : Shape σ) : Prop where
  /-- The values that are read are those of the type. -/
  accepted : ∀ t : Tree, t.IsJson → ((∃ s, shape.read true t = .ok s) ↔ d.type.Has t)
  /-- What is read is the standard record with the members replaced that are given. -/
  result : ∀ (t : Tree) (s : σ), t.IsJson → shape.read true t = .ok s → s = d.type.value t
  /-- What is given for any other key makes no difference. -/
  ignored : ∀ (fields : List (String × Tree)) (key : String) (u : Tree),
    (Tree.table fields).IsJson → u.IsJson → key ∉ d.keys → ∀ s,
      shape.read true (.table (Entries.insert key u fields)) = .ok s ↔
        shape.read true (.table fields) = .ok s
  /-- A list of the first members is read as the table of the same members is. -/
  listed : ∀ items : List Tree, (∀ t ∈ items, t.IsJson) → items.length ≤ d.members.length → ∀ s,
    shape.read true (.list items) = .ok s ↔
      shape.read true (.tableOf (d.keys.zip items)) = .ok s

end Declaration

/-! ### Parts and members -/

namespace Part

variable {σ : Type}

/-- A part of a record is read as a member of it is declared. -/
inductive ReadAs : Part σ → Member σ → Prop where
  | intro {α : Type} {read : Tree → Reading α} {type : Declared α} (key : String) (get : σ → α)
      (put : α → σ → σ) (h : type.ReadBy read) : ReadAs ⟨α, key, read, get, put⟩ ⟨α, key, type, put⟩

namespace ReadAs

variable {p q : Part σ} {m : Member σ} {given : Option Tree}

lemma key_eq (h : p.ReadAs m) : p.key = m.key := by
  cases h
  rfl

/-- Parts and members of the same number belong together. -/
lemma of_getElem? {parts : List (Part σ)} {members : List (Member σ)}
    (h : List.Forall₂ ReadAs parts members) {i : Nat} (hp : parts[i]? = some p)
    (hm : members[i]? = some m) : p.ReadAs m :=
  List.forall₂_zip h (List.mem_of_getElem? (List.getElem?_zip_eq_some.mpr ⟨hp, hm⟩))

/-- Only the part of the member is replaced. -/
lemma get_replace_of_ne (h : q.ReadAs m) (hput : ∀ x s, p.get (q.put x s) = p.get s) (s : σ) :
    p.get (m.replace given s) = p.get s := by
  cases h
  cases given with
  | none => rfl
  | some t => exact hput _ s

/-- Of the record in which the part is replaced only this part matters for it. -/
lemma get_replace_congr (h : p.ReadAs m) (hput : ∀ x s, p.get (p.put x s) = x) {s s' : σ}
    (hget : p.get s = p.get s') : p.get (m.replace given s) = p.get (m.replace given s') := by
  cases h
  cases given with
  | none => exact hget
  | some t => exact (hput _ s).trans (hput _ s').symm

/-- **A part takes what is given** iff the member admits it and has the value then. -/
lemma takes_iff (h : p.ReadAs m) (hput : ∀ x s, p.get (p.put x s) = x) {required : List String}
    {fallback standard : σ} (hgiven : ∀ t, given = some t → t.IsJson)
    (hstandard : p.key ∉ required → p.get fallback = p.get standard) (s : σ) :
    ((given = none → p.key ∉ required) ∧ p.Takes given fallback s) ↔
      m.Admits required given ∧ p.get (m.replace given standard) = p.get s := by
  obtain ⟨key, get, put, hread⟩ := h
  dsimp only at hput hstandard ⊢
  cases given with
  | none =>
    simp only [Takes, Member.Admits, Member.replace, forall_const]
    refine and_congr_right fun hkey => ?_
    rw [hstandard hkey, eq_comm]
  | some t =>
    simp only [Takes, Member.Admits, Member.replace, hread t (hgiven t rfl), reduceCtorEq,
      false_implies, true_and]
    rw [hput]

end ReadAs

end Part

/-! ### Shapes and declarations -/

namespace Shape

variable {σ : Type} {shape : Shape σ} {parts : List (Part σ)} {d : Declaration σ}

/-- A shape does as a declaration says, part by part. -/
structure Follows (shape : Shape σ) (parts : List (Part σ)) (d : Declaration σ) : Prop where
  lawful : shape.Lawful parts
  members : List.Forall₂ Part.ReadAs parts d.members
  required : shape.required = d.required
  /-- What need not be given has the same default. -/
  standard : ∀ p ∈ parts, p.key ∉ d.required → p.get shape.defaults = p.get d.standard

/-- Whether a record can be read depends on what is given for its parts. -/
lemma Lawful.read_congr (h : shape.Lawful parts) {strict : Bool} {t u : Tree} (ht : t.Sorted)
    (hu : u.Sorted) (hfits : shape.Fits strict t ↔ shape.Fits strict u)
    (hparts : ∀ (i : Nat) (p : Part σ), parts[i]? = some p →
      t.part? ⟨p.key, i⟩ = u.part? ⟨p.key, i⟩) (s : σ) :
    shape.read strict t = .ok s ↔ shape.read strict u = .ok s := by
  rw [h.read_eq_ok_iff ht, h.read_eq_ok_iff hu, hfits]
  refine and_congr_right fun _ => forall₂_congr fun i p => ?_
  refine imp_congr_right fun hp => ?_
  rw [hparts i p hp]

namespace Lawful

variable (h : shape.Lawful parts)

include h

/-- Replacing some members leaves the part of another one alone. -/
lemma get_replaceAll_of_notMem {group : List (Part σ)} {members : List (Member σ)}
    (hread : List.Forall₂ Part.ReadAs group members) (hgroup : ∀ q ∈ group, q ∈ parts) {p : Part σ}
    (hp : p ∈ parts) (hkey : p.key ∉ group.map Part.key) (t : Tree) (n : Nat) (s : σ) :
    p.get (Member.replaceAll t n members s) = p.get s := by
  induction hread generalizing n s with
  | nil => rfl
  | @cons q m group members hq _ ih =>
    rw [List.map_cons, List.mem_cons, not_or] at hkey
    rw [Member.replaceAll, ih (fun r hr => hgroup r (List.mem_cons_of_mem _ hr)) hkey.2]
    exact hq.get_replace_of_ne (h.get_put_of_ne p hp q (hgroup q List.mem_cons_self) hkey.1) s

/-- **Each part is replaced by what is given for it.**

**Proof sketch.** Induction on the members. The members that follow one have other keys, so that
they leave its part alone. -/
lemma get_replaceAll {group : List (Part σ)} {members : List (Member σ)}
    (hread : List.Forall₂ Part.ReadAs group members) (hgroup : ∀ q ∈ group, q ∈ parts)
    (hnodup : (group.map Part.key).Nodup) (t : Tree) (n : Nat) (s : σ) {i : Nat} {p : Part σ}
    {m : Member σ} (hp : group[i]? = some p) (hm : members[i]? = some m) :
    p.get (Member.replaceAll t n members s) =
      p.get (m.replace (t.part? ⟨m.key, n + i⟩) s) := by
  induction hread generalizing n s i with
  | nil => simp at hp
  | @cons q m' group members hq hread ih =>
    rw [List.map_cons, List.nodup_cons] at hnodup
    have hrest : ∀ r ∈ group, r ∈ parts := fun r hr => hgroup r (List.mem_cons_of_mem _ hr)
    rw [Member.replaceAll]
    cases i with
    | zero =>
      cases hp
      cases hm
      exact h.get_replaceAll_of_notMem hread hrest (hgroup p List.mem_cons_self) hnodup.1 t _ _
    | succ i =>
      have hmem : p ∈ group := List.mem_of_getElem? hp
      have hne : p.key ≠ q.key := fun heq => hnodup.1 (heq ▸ List.mem_map_of_mem hmem)
      have hpm : p.ReadAs m := Part.ReadAs.of_getElem? hread hp hm
      rw [ih hrest hnodup.2 (n + 1) _ hp hm, Nat.add_right_comm n 1 i, Nat.add_assoc]
      refine hpm.get_replace_congr (h.get_put p (hrest p hmem)) ?_
      exact hq.get_replace_of_ne
        (h.get_put_of_ne p (hrest p hmem) q (hgroup q List.mem_cons_self) hne) s

end Lawful

namespace Follows

variable (h : shape.Follows parts d)

include h

/-- There are as many fields as members. -/
lemma length_fields : shape.fields.length = d.members.length := by
  rw [h.lawful.fields_eq, List.length_map, h.members.length_eq]

/-- Each part has a member. -/
lemma exists_member {i : Nat} {p : Part σ} (hp : parts[i]? = some p) :
    ∃ m, d.members[i]? = some m := by
  obtain ⟨hi, -⟩ := List.getElem?_eq_some_iff.mp hp
  exact ⟨_, List.getElem?_eq_getElem (h.members.length_eq ▸ hi)⟩

/-- Each member has a part. -/
lemma exists_part {i : Nat} {m : Member σ} (hm : d.members[i]? = some m) :
    ∃ p, parts[i]? = some p := by
  obtain ⟨hi, -⟩ := List.getElem?_eq_some_iff.mp hm
  exact ⟨_, List.getElem?_eq_getElem (h.members.length_eq ▸ hi)⟩

/-- The keys of the members are those of the parts. -/
lemma keys_eq : d.keys = parts.map Part.key := by
  have hmap : ∀ members, List.Forall₂ Part.ReadAs parts members →
      members.map Member.key = parts.map Part.key := by
    clear h
    intro members hmembers
    induction hmembers with
    | nil => rfl
    | cons hq _ ih => rw [List.map_cons, List.map_cons, hq.key_eq, ih]
  exact hmap d.members h.members

/-- The values that hold the fields of a record fit. -/
lemma fits_iff (t : Tree) : shape.Fits true t ↔ t.HoldsFields d.members.length := by
  cases t with
  | list items => simp [Fits, Tree.HoldsFields, h.length_fields]
  | _ => exact Iff.rfl

/-- What a value stands for is known by what it gives for each part. -/
lemma value_eq_iff (t : Tree) (s : σ) : d.type.value t = s ↔
    ∀ (i : Nat) (p : Part σ) (m : Member σ), parts[i]? = some p → d.members[i]? = some m →
      p.get (m.replace (t.part? ⟨m.key, i⟩) d.standard) = p.get s := by
  have hget : ∀ {i : Nat} {p : Part σ} {m : Member σ}, parts[i]? = some p →
      d.members[i]? = some m → p.get (d.type.value t) =
        p.get (m.replace (t.part? ⟨m.key, i⟩) d.standard) := by
    intro i p m hp hm
    have hreplaced := h.lawful.get_replaceAll h.members (fun _ hq => hq) h.lawful.nodup t 0
      d.standard hp hm
    rwa [Nat.zero_add] at hreplaced
  constructor
  · rintro rfl i p m hp hm
    exact (hget hp hm).symm
  · intro hall
    refine h.lawful.ext _ _ fun p hmem => ?_
    obtain ⟨i, hp⟩ := List.getElem?_of_mem hmem
    obtain ⟨m, hm⟩ := h.exists_member hp
    exact (hget hp hm).trans (hall i p m hp hm)

/-- **Records are read as they are declared.**

**Proof sketch.** A part takes what is given for it iff its member admits it, and then has the value
that it has in what the whole stands for. -/
theorem readBy : d.type.ReadBy (shape.read true) := by
  intro t ht s
  have htakes : ∀ {i : Nat} {p : Part σ} {m : Member σ}, parts[i]? = some p →
      d.members[i]? = some m →
      (((t.part? ⟨p.key, i⟩ = none → p.key ∉ shape.required) ∧
          p.Takes (t.part? ⟨p.key, i⟩) shape.defaults s) ↔
        m.Admits d.required (t.part? ⟨m.key, i⟩) ∧
          p.get (m.replace (t.part? ⟨m.key, i⟩) d.standard) = p.get s) := by
    intro i p m hp hm
    have hpm := Part.ReadAs.of_getElem? h.members hp hm
    have hmem : p ∈ parts := List.mem_of_getElem? hp
    rw [h.required, ← hpm.key_eq]
    exact hpm.takes_iff (h.lawful.get_put p hmem) (fun u hu => ht.part? hu) (h.standard p hmem) s
  rw [h.lawful.read_eq_ok_iff ht.sorted, h.value_eq_iff, h.fits_iff]
  constructor
  · rintro ⟨hfits, hparts⟩
    refine ⟨⟨hfits, fun i m hm => ?_⟩, fun i p m hp hm => ((htakes hp hm).mp (hparts i p hp)).2⟩
    obtain ⟨p, hp⟩ := h.exists_part hm
    exact ((htakes hp hm).mp (hparts i p hp)).1
  · rintro ⟨⟨hfits, hadmits⟩, hvalue⟩
    refine ⟨hfits, fun i p hp => ?_⟩
    obtain ⟨m, hm⟩ := h.exists_member hp
    exact (htakes hp hm).mpr ⟨hadmits i m hm, hvalue i p m hp hm⟩

/-- **A shape that follows a declaration does as it says.** -/
theorem keptBy : d.KeptBy shape where
  accepted t ht := by
    simp only [h.readBy t ht, exists_and_left, exists_eq', and_true]
  result t s ht hs := ((h.readBy t ht s).mp hs).2.symm
  ignored fields key u hfields hu hkey s := by
    refine h.lawful.read_congr (hfields.insert hu).sorted hfields.sorted Iff.rfl ?_ s
    intro i p hp
    have hne : p.key ≠ key := by
      rintro rfl
      rw [h.keys_eq] at hkey
      exact hkey (List.mem_map_of_mem (List.mem_of_getElem? hp))
    simp only [Tree.part?]
    rw [Entries.get?_insert, if_neg hne]
  listed items hitems hlength s := by
    have hpairs : ∀ q ∈ d.keys.zip items, q.2.IsJson := fun q hq =>
      hitems q.2 (List.of_mem_zip hq).2
    refine h.lawful.read_congr (Tree.IsJson.list hitems).sorted
      (Tree.IsJson.tableOf hpairs).sorted ?_ ?_ s
    · simp [Fits, Tree.tableOf, h.length_fields, hlength]
    · intro i p hp
      have hkey : d.keys[i]? = some p.key := by rw [h.keys_eq, List.getElem?_map, hp]; rfl
      exact (Tree.part?_tableOf_zip (h.keys_eq ▸ h.lawful.nodup) hkey items i).symm

end Follows

end Shape

end KeyIntake
