import KeyIntake.Proofs.Dictionary
import KeyIntake.Tree
import Mathlib.Data.List.Basic
/-!
# Layers of trees

Trees are layered over each other table by table. This module says what a stack of layers gives at a
path without merging it: of the layers that stand there the highest one that says something. A layer
replaces the ones below it as a whole unless both are tables, so a list or a scalar in place of a
table hides the tables below it and is itself hidden by a table above it.

## Main definitions

* `Tree.Sorted` — in every table inside a tree, keys increase.
* `Place` — a step of a path.
* `Tree.standing`, `Tree.given` — what a stack of layers gives at a path.
* `Tree.TablesAlong` — there are only tables on the way along a path.

## Main results

* `Tree.get?_mergeFields` — the fields of a merged table.
* `Tree.given_layer` — merging a stack of layers does not change what it gives.
* `Tree.given_of_tablesAlong` — where there are only tables on the way, the highest layer that has a
  value at a path gives it.
-/

set_option relaxedAutoImplicit false
set_option autoImplicit false

namespace KeyIntake

namespace Tree

/-! ### Tables inside trees -/

/-- The tree is a table. -/
def isTable : Tree → Bool
  | table _ => true
  | _ => false

/-- A tree that is a table has fields. -/
lemma exists_fields_of_isTable {t : Tree} (h : t.isTable = true) : ∃ fields, t = table fields := by
  cases t with
  | table fields => exact ⟨fields, rfl⟩
  | _ => simp [isTable] at h

/-- What holds of all trees but tables, and of a table if it holds of the values of its fields,
holds of all trees. -/
lemma induct_fields {motive : Tree → Prop} (leaf : ∀ t, t.isTable = false → motive t)
    (table : ∀ fields, (∀ p ∈ fields, motive p.2) → motive (table fields)) : ∀ t, motive t := by
  refine Tree.rec (motive_1 := motive) (motive_2 := fun _ => True)
    (motive_3 := fun fields => ∀ p ∈ fields, motive p.2) (motive_4 := fun p => motive p.2)
    (leaf _ rfl) (fun _ => leaf _ rfl) (fun _ => leaf _ rfl) (fun _ => leaf _ rfl)
    (fun _ => leaf _ rfl) (fun _ => leaf _ rfl) (fun _ _ => leaf _ rfl) table trivial
    (fun _ _ _ _ => trivial) ?nil ?cons fun _ _ h => h
  case nil => simp
  case cons =>
    intro p fields hp hfields q hq
    rcases List.mem_cons.mp hq with rfl | hmem
    · exact hp
    · exact hfields q hmem

/-- In every table inside the tree, keys increase. -/
inductive Sorted : Tree → Prop where
  | null : Sorted null
  | bool (b : Bool) : Sorted (bool b)
  | unsigned (n : Nat) : Sorted (unsigned n)
  | signed (i : Int) : Sorted (signed i)
  | float (x : Binary64) : Sorted (float x)
  | text (s : String) : Sorted (text s)
  | list {items : List Tree} (h : ∀ t ∈ items, Sorted t) : Sorted (list items)
  | table {fields : List (String × Tree)} (hkeys : Entries.Sorted fields)
      (h : ∀ p ∈ fields, Sorted p.2) : Sorted (table fields)

namespace Sorted

variable {fields : List (String × Tree)} {items : List Tree} {t u : Tree} {key : String}

/-- The keys of a table increase. -/
lemma keys (h : Sorted (Tree.table fields)) : Entries.Sorted fields := by
  cases h with
  | table hkeys _ => exact hkeys

/-- So do those inside the value of a field. -/
lemma field (h : Sorted (Tree.table fields)) (hget : Entries.get? fields key = some t) :
    t.Sorted := by
  cases h with
  | table _ hvalues => exact hvalues (key, t) (Entries.mem_of_get?_eq_some hget)

/-- So do those inside an item of a list. -/
lemma item (h : Sorted (Tree.list items)) (hmem : t ∈ items) : t.Sorted := by
  cases h with
  | list hitems => exact hitems t hmem

/-- A table whose fields are given by key is sorted if what it gives for each key is. -/
lemma table_of_get? (hkeys : Entries.Sorted fields)
    (h : ∀ k t, Entries.get? fields k = some t → t.Sorted) : Sorted (Tree.table fields) := by
  refine .table hkeys ?_
  rintro ⟨k, t⟩ hmem
  exact h k t (hkeys.mem_iff.mp hmem)

/-- A table without fields is sorted. -/
lemma empty : Sorted (Tree.table []) := .table List.Pairwise.nil (by simp)

/-- A sorted value of a key leaves a table sorted. -/
lemma insert (h : Sorted (Tree.table fields)) (ht : t.Sorted) :
    Sorted (Tree.table (Entries.insert key t fields)) := by
  refine table_of_get? (h.keys.insert key t) ?_
  intro k u hu
  rw [Entries.get?_insert] at hu
  split at hu
  · cases hu
    exact ht
  · exact h.field hu

end Sorted

/-! ### One layer over another -/

variable {lower upper : Tree} {fl fu : List (String × Tree)}

/-- A tree that is no table replaces what is below it. -/
lemma merge_of_leaf (h : upper.isTable = false) : merge lower upper = upper := by
  cases upper with
  | table fields => simp [isTable] at h
  | _ => rw [merge]; simp

/-- It is itself replaced by what is above it. -/
lemma merge_leaf (h : lower.isTable = false) : merge lower upper = upper := by
  cases upper with
  | table fields =>
    cases lower with
    | table fl => simp [isTable] at h
    | _ => rw [merge]; simp
  | _ => rw [merge]; simp

/-- Tables are merged. -/
lemma merge_table : merge (table fl) (table fu) = table (mergeFields fl fu) := by rw [merge]

/-- A merged tree is a table iff the upper one is. -/
lemma isTable_merge : (merge lower upper).isTable = upper.isTable := by
  cases hupper : upper.isTable with
  | false => rw [merge_of_leaf hupper, hupper]
  | true =>
    cases hlower : lower.isTable with
    | false => rw [merge_leaf hlower, hupper]
    | true =>
      obtain ⟨fl, rfl⟩ := exists_fields_of_isTable hlower
      obtain ⟨fu, rfl⟩ := exists_fields_of_isTable hupper
      rw [merge_table]
      rfl

/-- What two layers give together, given what each of them has. -/
def overlay : Option Tree → Option Tree → Option Tree
  | some u, some v => some (merge u v)
  | none, v => v
  | u, none => u

@[simp] lemma overlay_none (u : Option Tree) : overlay u none = u := by cases u <;> rfl

@[simp] lemma none_overlay (u : Option Tree) : overlay none u = u := by cases u <;> rfl

@[simp] lemma some_overlay_some (u v : Tree) : overlay (some u) (some v) = some (merge u v) := rfl

/-- **The fields of a merged table**: each has what the two tables give for it together. -/
theorem get?_mergeFields (h : Entries.Sorted fu) (k : String) :
    Entries.get? (mergeFields fl fu) k = overlay (Entries.get? fl k) (Entries.get? fu k) := by
  induction fu generalizing fl with
  | nil => simp [mergeFields, Entries.get?]
  | cons p rest ih =>
    obtain ⟨key, upper⟩ := p
    rw [mergeFields, ih h.tail, Entries.get?_insert, Entries.get?_cons]
    by_cases hk : k = key
    · subst hk
      rw [if_pos rfl, if_pos rfl, h.get?_tail, overlay_none]
      cases Entries.get? fl k <;> rfl
    · rw [if_neg hk, if_neg fun heq => hk heq.symm]

/-- Merging keeps the keys of the lower table increasing. -/
lemma sorted_keys_mergeFields (h : Entries.Sorted fl) : Entries.Sorted (mergeFields fl fu) := by
  induction fu generalizing fl with
  | nil => simpa [mergeFields] using h
  | cons p rest ih =>
    obtain ⟨key, upper⟩ := p
    rw [mergeFields]
    exact ih (h.insert _ _)

/-- **Layering keeps trees sorted.**

**Proof sketch.** Induction on the upper tree. The value of a field of a merged table is that of one
of the tables, or one merged from both. -/
theorem Sorted.merge (hl : lower.Sorted) (hu : upper.Sorted) : (merge lower upper).Sorted := by
  induction upper using induct_fields generalizing lower with
  | leaf t ht => rwa [merge_of_leaf ht]
  | table fu ih =>
    cases hlower : lower.isTable with
    | false => rwa [merge_leaf hlower]
    | true =>
      obtain ⟨fl, rfl⟩ := exists_fields_of_isTable hlower
      rw [merge_table]
      refine table_of_get? (sorted_keys_mergeFields hl.keys) ?_
      intro k t ht
      rw [get?_mergeFields hu.keys] at ht
      cases hlk : Entries.get? fl k with
      | none =>
        rw [hlk, none_overlay] at ht
        exact hu.field ht
      | some u =>
        cases huk : Entries.get? fu k with
        | none =>
          rw [hlk, huk, overlay_none] at ht
          cases ht
          exact hl.field hlk
        | some v =>
          rw [hlk, huk, some_overlay_some] at ht
          cases ht
          exact ih (k, v) (Entries.mem_of_get?_eq_some huk) (hl.field hlk) (hu.field huk)

/-- So does layering a list of them. -/
theorem Sorted.layer {layers : List Tree} (h : ∀ t ∈ layers, t.Sorted) : (layer layers).Sorted := by
  have hfold : ∀ t : Tree, t.Sorted → (layers.foldl Tree.merge t).Sorted := by
    induction layers with
    | nil => exact fun t ht => ht
    | cons u rest ih =>
      intro t ht
      exact ih (fun v hv => h v (List.mem_cons_of_mem _ hv)) _
        (ht.merge (h u List.mem_cons_self))
  exact hfold _ .empty

/-- Layers that are tables make a table. -/
lemma isTable_layer {layers : List Tree} (h : ∀ t ∈ layers, t.isTable = true) :
    (layer layers).isTable = true := by
  have hfold : ∀ t : Tree, t.isTable = true → (layers.foldl Tree.merge t).isTable = true := by
    induction layers with
    | nil => exact fun t ht => ht
    | cons u rest ih =>
      intro t _
      refine ih (fun v hv => h v (List.mem_cons_of_mem _ hv)) _ ?_
      rw [isTable_merge]
      exact h u List.mem_cons_self
  exact hfold _ rfl

end Tree

/-! ### What a stack of layers gives -/

/-- A step of a path: the key of a field, and its position among the fields of its record, which is
where a list has it. -/
structure Place where
  key : String
  position : Nat
  deriving DecidableEq, Repr

namespace Tree

/-- What a tree has at a place: the field of a table, the item of a list. -/
def part? (t : Tree) (place : Place) : Option Tree :=
  match t with
  | table fields => Entries.get? fields place.key
  | list items => items[place.position]?
  | _ => none

/-- What a sorted tree has at a place is sorted. -/
lemma Sorted.part? {t u : Tree} (h : t.Sorted) {place : Place} (hentry : t.part? place = some u) :
    u.Sorted := by
  cases t with
  | table fields => exact h.field hentry
  | list items => exact h.item (List.mem_of_getElem? hentry)
  | _ => simp [Tree.part?] at hentry

/-- The layers of a stack, the lowest first, that the ones above them have not replaced as a whole:
the tables on top of it, or the uppermost layer if it is no table. -/
def standing : List Tree → List Tree
  | [] => []
  | [t] => [t]
  | t :: rest => if (t :: rest).all isTable then t :: rest else standing rest

/-- **What a stack of layers gives at a path**, the lowest layer being the first: of the layers that
stand, the highest one that has something there. -/
def given (layers : List Tree) : List Place → Option Tree
  | [] => layers.getLast?
  | place :: path => given ((standing layers).filterMap fun t => t.part? place) path

variable {a b t : Tree} {layers rest : List Tree} {path : List Place}

/-- Nothing is given by no layers. -/
@[simp] lemma given_nil (path : List Place) : given [] path = none := by
  induction path with
  | nil => rfl
  | cons place path ih => simpa [given, standing] using ih

/-- One layer gives what it has. -/
lemma given_singleton (t : Tree) (place : Place) (path : List Place) :
    given [t] (place :: path) = (t.part? place).bind fun u => given [u] path := by
  rw [given, standing, List.filterMap_cons, List.filterMap_nil]
  cases t.part? place <;> simp

/-- Tables all stand. -/
lemma standing_of_tables (h : ∀ t ∈ layers, t.isTable = true) : standing layers = layers := by
  cases layers with
  | nil => rfl
  | cons t rest =>
    cases rest with
    | nil => rfl
    | cons u rest => rw [standing, if_pos (List.all_eq_true.mpr h)]; simp

/-- Where not all layers are tables, the lowest one does not stand unless it is the only one. -/
lemma standing_cons_of_leaf (h : (a :: b :: rest).all isTable = false) :
    standing (a :: b :: rest) = standing (b :: rest) := by
  rw [standing, h, if_neg Bool.false_ne_true]
  simp

/-- Where not all layers are tables, the lower one of two stands no more than both merged. -/
lemma standing_merge (h : ¬ ∀ t ∈ a :: b :: rest, t.isTable = true) :
    standing (a :: b :: rest) = standing (merge a b :: rest) := by
  have hall : (a :: b :: rest).all isTable = false := by simpa using h
  rw [standing_cons_of_leaf hall]
  by_cases hboth : a.isTable = true ∧ b.isTable = true
  · -- the layer that is no table is above both
    cases rest with
    | nil => simp [hboth] at hall
    | cons c rest =>
      have hrest : (c :: rest).all isTable = false := by simpa [hboth] using hall
      rw [standing_cons_of_leaf, standing_cons_of_leaf]
      · rw [List.all_cons, hrest, Bool.and_false]
      · rw [List.all_cons, hrest, Bool.and_false]
  · have hmerged : merge a b = b := by
      cases ha : a.isTable with
      | false => exact merge_leaf ha
      | true => exact merge_of_leaf (by simpa [ha] using hboth)
    rw [hmerged]

/-- Merging the two lowest layers does not change what a stack gives, unless it gives a table.

**Proof sketch.** Induction on the path. If one of the layers is no table, the same layers stand
before and after. If all are tables, the two merged have at each place what they have there
together, and the argument goes on with the values at that place. -/
lemma given_merge (ha : a.Sorted) (hb : b.Sorted)
    (hflat : ∀ fields, given (merge a b :: rest) path ≠ some (table fields)) :
    given (a :: b :: rest) path = given (merge a b :: rest) path := by
  induction path generalizing a b rest with
  | nil =>
    cases rest with
    | cons c rest => simp [given]
    | nil =>
      have hleaf : b.isTable = false := by
        rw [← Bool.not_eq_true]
        intro htable
        have hmerged : (merge a b).isTable = true := by rw [isTable_merge, htable]
        obtain ⟨fields, hfields⟩ := exists_fields_of_isTable hmerged
        exact hflat fields (congrArg some hfields)
      simp [given, merge_of_leaf hleaf]
  | cons place path ih =>
    by_cases hall : ∀ t ∈ a :: b :: rest, t.isTable = true
    · obtain ⟨fl, rfl⟩ := exists_fields_of_isTable (hall a (by simp))
      obtain ⟨fu, rfl⟩ := exists_fields_of_isTable (hall b (by simp))
      have hmerged : ∀ t ∈ merge (table fl) (table fu) :: rest, t.isTable = true := by
        intro t ht
        rcases List.mem_cons.mp ht with rfl | hmem
        · rw [isTable_merge]
          rfl
        · exact hall t (by simp [hmem])
      rw [given, standing_of_tables hmerged] at hflat
      rw [given, standing_of_tables hall, given, standing_of_tables hmerged]
      simp only [List.filterMap_cons, merge_table, part?, get?_mergeFields hb.keys] at hflat ⊢
      cases hl : Entries.get? fl place.key with
      | none => rfl
      | some u =>
        cases hu : Entries.get? fu place.key with
        | none => rfl
        | some v =>
          rw [hl, hu, some_overlay_some] at hflat
          exact ih (ha.field hl) (hb.field hu) hflat
    · rw [given, given, standing_merge hall]

/-- **Merging a stack of layers does not change what it gives**, unless it gives a table. -/
theorem given_layer (hsorted : ∀ t ∈ layers, t.Sorted) (htables : ∀ t ∈ layers, t.isTable = true)
    {place : Place}
    (hflat : ∀ fields, given [layer layers] (place :: path) ≠ some (table fields)) :
    given layers (place :: path) = given [layer layers] (place :: path) := by
  have hfold : ∀ t : Tree, t.Sorted →
      (∀ fields, given [layers.foldl merge t] (place :: path) ≠ some (table fields)) →
      given (t :: layers) (place :: path) = given [layers.foldl merge t] (place :: path) := by
    clear hflat htables
    induction layers with
    | nil => exact fun t _ _ => rfl
    | cons u rest ih =>
      intro t ht hflat
      have hu : u.Sorted := hsorted u List.mem_cons_self
      have hrest := ih (fun v hv => hsorted v (List.mem_cons_of_mem _ hv)) _ (ht.merge hu) hflat
      rw [List.foldl_cons, ← hrest]
      refine given_merge ht hu fun fields => ?_
      rw [hrest]
      exact hflat fields
  have hempty : given (table [] :: layers) (place :: path) = given layers (place :: path) := by
    have hall : ∀ t ∈ table [] :: layers, t.isTable = true := by
      intro t ht
      rcases List.mem_cons.mp ht with rfl | hmem
      · rfl
      · exact htables t hmem
    rw [given, standing_of_tables hall, given, standing_of_tables htables]
    rfl
  rw [← hempty]
  exact hfold _ .empty hflat

/-! ### Where all layers are tables -/

/-- There are only tables on the way along a path of keys. -/
def TablesAlong (t : Tree) : List String → Prop
  | [] => True
  | key :: path => t.isTable = true ∧ ∀ u, t.field? key = some u → u.TablesAlong path

/-- Whether there are only tables on the way can be looked up. -/
instance decidableTablesAlong : (t : Tree) → (path : List String) → Decidable (t.TablesAlong path)
  | _, [] => isTrue trivial
  | t, key :: path =>
    match h : t.field? key with
    | none => decidable_of_iff (t.isTable = true) (by simp [TablesAlong, h])
    | some u =>
      have := decidableTablesAlong u path
      decidable_of_iff (t.isTable = true ∧ u.TablesAlong path) (by simp [TablesAlong, h])

/-- The keys of a path. -/
def keys (path : List Place) : List String := path.map Place.key

/-- A table has at a path what the value of a field has at the rest of it. -/
lemma at?_of_isTable (h : t.isTable = true) (key : String) (path : List String) :
    t.at? (key :: path) = (t.field? key).bind fun u => u.at? path := by
  obtain ⟨fields, rfl⟩ := exists_fields_of_isTable h
  rw [at?]
  cases field? (table fields) key <;> rfl

/-- **Where there are only tables on the way**, the highest layer that has a value at a path gives
it. -/
theorem given_of_tablesAlong (h : ∀ t ∈ layers, t.TablesAlong (keys path)) :
    given layers path = layers.reverse.findSome? fun t => t.at? (keys path) := by
  induction path generalizing layers with
  | nil =>
    rw [given, ← List.head?_reverse]
    cases layers.reverse with
    | nil => rfl
    | cons t rest => rfl
  | cons place path ih =>
    have htables : ∀ t ∈ layers, t.isTable = true := fun t ht => (h t ht).1
    have hentry : layers.filterMap (fun t => t.part? place) =
        layers.filterMap fun t => t.field? place.key := by
      refine List.filterMap_congr fun t ht => ?_
      obtain ⟨fields, rfl⟩ := exists_fields_of_isTable (htables t ht)
      rfl
    rw [given, standing_of_tables htables, hentry, ih, ← List.filterMap_reverse]
    · have hcongr : ∀ l : List Tree, (∀ t ∈ l, t.isTable = true) →
          ((l.filterMap fun t => t.field? place.key).findSome? fun u => u.at? (keys path)) =
            l.findSome? fun t => t.at? (keys (place :: path)) := by
        intro l hl
        induction l with
        | nil => rfl
        | cons t rest ihl =>
          have hat : t.at? (keys (place :: path)) =
              (t.field? place.key).bind fun u => u.at? (keys path) :=
            at?_of_isTable (hl t List.mem_cons_self) place.key (keys path)
          rw [List.findSome?_cons, hat, List.filterMap_cons,
            ← ihl fun u hu => hl u (List.mem_cons_of_mem _ hu)]
          cases t.field? place.key with
          | none => rfl
          | some u => rw [List.findSome?_cons]; rfl
      exact hcongr _ fun t ht => htables t (List.mem_reverse.mp ht)
    · intro u hu
      obtain ⟨t, ht, hfield⟩ := List.mem_filterMap.mp hu
      exact (h t ht).2 u hfield

end Tree

end KeyIntake
