import KeyIntake.Proofs.Tree.Layer
import KeyIntake.Tree.Json
/-!
# Values in JSON

Which trees a JSON text can hold. Its whole numbers are words, or negative and in the range of
signed words; all others are floating-point values. In its tables the keys increase, because the
last of equal keys counts.

## Main definitions

* `Tree.IsJson` — the trees that JSON texts hold.

## Main results

* `Tree.IsJson.sorted` — in every table inside such a tree, keys increase.
* `Json.isJson_of_read?` — what is read from a JSON text is such a tree.
-/

set_option relaxedAutoImplicit false
set_option autoImplicit false

namespace KeyIntake

namespace Tree

/-- A tree that a JSON text can hold. -/
inductive IsJson : Tree → Prop where
  | null : IsJson null
  | bool (b : Bool) : IsJson (bool b)
  | unsigned {n : Nat} (h : n < Word.limit) : IsJson (unsigned n)
  | signed {i : Int} (h : i < 0) (hrange : -(Word.signedLimit : Int) ≤ i) : IsJson (signed i)
  | float (x : Binary64) : IsJson (float x)
  | text (s : String) : IsJson (text s)
  | list {items : List Tree} (h : ∀ t ∈ items, IsJson t) : IsJson (list items)
  | table {fields : List (String × Tree)} (hkeys : Entries.Sorted fields)
      (h : ∀ p ∈ fields, IsJson p.2) : IsJson (table fields)

namespace IsJson

variable {fields : List (String × Tree)} {items : List Tree} {t u : Tree} {key : String}

/-- **In every table inside a JSON value, keys increase.** -/
theorem sorted (h : t.IsJson) : t.Sorted := by
  induction h with
  | null => exact .null
  | bool b => exact .bool b
  | unsigned => exact .unsigned _
  | signed => exact .signed _
  | float x => exact .float x
  | text s => exact .text s
  | list _ ih => exact .list ih
  | table hkeys _ ih => exact .table hkeys ih

/-- What a JSON value has at a place is one. -/
lemma part? {place : Place} (h : t.IsJson) (hentry : t.part? place = some u) : u.IsJson := by
  cases h with
  | list hitems => exact hitems u (List.mem_of_getElem? hentry)
  | table _ hvalues => exact hvalues (place.key, u) (Entries.mem_of_get?_eq_some hentry)
  | _ => simp [Tree.part?] at hentry

/-- The fields of a JSON value are JSON values, also those that are given anew. -/
lemma insert (h : IsJson (Tree.table fields)) (hu : u.IsJson) :
    IsJson (Tree.table (Entries.insert key u fields)) := by
  cases h with
  | table hkeys hvalues =>
    refine .table (hkeys.insert key u) fun p hp => ?_
    rcases Entries.mem_insert hp with rfl | hp
    · exact hu
    · exact hvalues p hp

/-- A table whose fields are given one after the other is one of JSON values. -/
lemma tableOf {pairs : List (String × Tree)} (h : ∀ p ∈ pairs, p.2.IsJson) :
    (Tree.tableOf pairs).IsJson := by
  have hfold : ∀ fields, IsJson (Tree.table fields) →
      IsJson (Tree.table (Entries.insertAll pairs fields)) := by
    induction pairs with
    | nil => exact fun fields hfields => hfields
    | cons p pairs ih =>
      intro fields hfields
      exact ih (fun q hq => h q (List.mem_cons_of_mem _ hq)) _
        (hfields.insert (h p List.mem_cons_self))
  exact hfold [] (.table List.Pairwise.nil (by simp))

end IsJson

end Tree

namespace Json

/-! ### What is read -/

/-- A whole number is a word, negative, or a floating-point value. -/
lemma isJson_wholeNumber (negative : Bool) (n : Nat) : (wholeNumber negative n).IsJson := by
  rw [wholeNumber]
  split
  · split
    case isTrue hsmall =>
      refine .signed ?_ ?_ <;> omega
    case isFalse => exact .float _
  · split
    case isTrue hword => exact .unsigned hword
    case isFalse => exact .float _

/-- A number that is read is a JSON value. -/
lemma isJson_of_number? {negative : Bool} {cs rest : List Char} {t : Tree}
    (h : number? negative cs = some (t, rest)) : t.IsJson := by
  simp only [number?] at h
  split at h
  · simp at h
  · simp only [bind, Option.bind_eq_some_iff] at h
    obtain ⟨⟨fraction, rest₁⟩, -, ⟨exponent, rest₂⟩, -, h⟩ := h
    dsimp only at h
    split at h
    · simp at h
    · obtain ⟨rfl, -⟩ := Prod.mk.inj (Option.some.inj h)
      split
      · exact isJson_wholeNumber _ _
      · exact .float _

section Elements

variable {readValue : List Char → Option (Tree × List Char)}
  (hvalue : ∀ cs t rest, readValue cs = some (t, rest) → t.IsJson)

include hvalue

/-- The items that are read are JSON values if each one is. -/
lemma isJson_of_items? {read items : List Tree} {bound : Nat} {cs rest : List Char}
    (hread : ∀ t ∈ read, t.IsJson) (h : items? readValue read bound cs = some (items, rest)) :
    ∀ t ∈ items, t.IsJson := by
  induction bound generalizing read cs with
  | zero => simp [items?] at h
  | succ bound ih =>
    simp only [items?, bind, Option.bind_eq_some_iff] at h
    obtain ⟨⟨t, rest₁⟩, ht, h⟩ := h
    have hall : ∀ u ∈ t :: read, u.IsJson := by
      intro u hu
      rcases List.mem_cons.mp hu with rfl | hu
      · exact hvalue _ _ _ ht
      · exact hread u hu
    dsimp only at h
    split at h
    · exact ih hall h
    · obtain ⟨rfl, -⟩ := Prod.mk.inj (Option.some.inj h)
      exact fun u hu => hall u (List.mem_reverse.mp hu)
    · simp at h

/-- The table of the fields that are read is a JSON value if each value is. -/
lemma isJson_of_fields? {read fields : List (String × Tree)} {bound : Nat} {cs rest : List Char}
    (hread : (Tree.table read).IsJson)
    (h : fields? readValue read bound cs = some (fields, rest)) : (Tree.table fields).IsJson := by
  induction bound generalizing read cs with
  | zero => simp [fields?] at h
  | succ bound ih =>
    simp only [fields?] at h
    split at h
    · simp only [bind, Option.bind_eq_some_iff] at h
      obtain ⟨⟨key, rest₁⟩, -, h⟩ := h
      dsimp only at h
      split at h
      · obtain ⟨⟨t, rest₂⟩, ht, h⟩ := Option.bind_eq_some_iff.mp h
        have hnext : (Tree.table (Entries.insert key t read)).IsJson :=
          hread.insert (hvalue _ _ _ ht)
        dsimp only at h
        split at h
        · exact ih hnext h
        · obtain ⟨rfl, -⟩ := Prod.mk.inj (Option.some.inj h)
          exact hnext
        · simp at h
      · simp at h
    · simp at h

end Elements

/-- **A value that is read is a JSON value.**

**Proof sketch.** Induction on the depth that is left, which the values inside a list or a table
have less of. -/
theorem isJson_of_value? {depth : Nat} {cs rest : List Char} {t : Tree}
    (h : value? depth cs = some (t, rest)) : t.IsJson := by
  induction depth using Nat.strongRecOn generalizing cs t rest with
  | _ depth ih =>
    rw [value?] at h
    split at h
    · obtain ⟨rfl, -⟩ := Prod.mk.inj (Option.some.inj h)
      exact .null
    · obtain ⟨rfl, -⟩ := Prod.mk.inj (Option.some.inj h)
      exact .bool true
    · obtain ⟨rfl, -⟩ := Prod.mk.inj (Option.some.inj h)
      exact .bool false
    · obtain ⟨⟨s, rest₁⟩, -, hp⟩ := Option.map_eq_some_iff.mp h
      obtain ⟨rfl, -⟩ := Prod.mk.inj hp
      exact .text s
    · exact isJson_of_number? h
    -- a list
    · split at h
      · simp at h
      · split at h
        · obtain ⟨rfl, -⟩ := Prod.mk.inj (Option.some.inj h)
          exact .list (by simp)
        · obtain ⟨⟨items, rest₁⟩, hitems, hp⟩ := Option.map_eq_some_iff.mp h
          obtain ⟨rfl, -⟩ := Prod.mk.inj hp
          exact .list (isJson_of_items? (fun _ _ _ => ih _ (Nat.lt_succ_self _)) (by simp) hitems)
    -- a table
    · split at h
      · simp at h
      · split at h
        · obtain ⟨rfl, -⟩ := Prod.mk.inj (Option.some.inj h)
          exact .table List.Pairwise.nil (by simp)
        · obtain ⟨⟨fields, rest₁⟩, hfields, hp⟩ := Option.map_eq_some_iff.mp h
          obtain ⟨rfl, -⟩ := Prod.mk.inj hp
          exact isJson_of_fields? (fun _ _ _ => ih _ (Nat.lt_succ_self _))
            (.table List.Pairwise.nil (by simp)) hfields
    · split at h
      · exact isJson_of_number? h
      · simp at h
    · simp at h

/-- **What a JSON text holds is a JSON value.** -/
theorem isJson_of_read? {text : String} {t : Tree} (h : read? text = some t) : t.IsJson := by
  simp only [read?, bind, Option.bind_eq_some_iff] at h
  obtain ⟨⟨u, rest⟩, hu, h⟩ := h
  dsimp only at h
  split at h
  · obtain rfl := Option.some.inj h
    exact isJson_of_value? hu
  · simp at h

end Json

end KeyIntake
