import KeyIntake.Harvest
import Mathlib.Data.List.Nodup
import Mathlib.Data.List.Perm.Subperm
/-!
# Collections up to equality

A collection of distinct values is known by what it contains. Growth is described by what is
contained afterwards, and by which of several equal values is kept, namely the first. Equality of
collections as sets, for which neither that nor the order of the values matters, turns out to be
equality of contents.

## Main definitions

* `Distinct.classes` — the values of a collection as classes of equal values.

## Main results

* `Distinct.contains_insertAll` — what a collection contains after values were added.
* `Distinct.mem_ofList_iff` — of equal values the first one is kept.
* `Distinct.sameAs_iff` — collections are the same iff they contain the same values.
* `Harvest.beq_iff` — harvests agree iff they count as many faults and contain the same values.
-/

set_option relaxedAutoImplicit false
set_option autoImplicit false

namespace KeyIntake

variable {α : Type} [BEq α]

namespace Distinct

/-! ### Distinctness -/

/-- The values of a collection differ in whatever tells values apart. -/
lemma nodup_map {β : Type} {g : α → β} (s : Distinct α)
    (hg : ∀ {a b : α}, (a == b) = true ↔ g a = g b) : (s.values.map g).Nodup := by
  rw [List.Nodup, List.pairwise_map]
  refine s.apart.imp fun {a b} hab heq => ?_
  rw [hg.mpr heq] at hab
  exact Bool.false_ne_true hab.symm

/-! ### Growth -/

/-- Nothing is contained in the empty collection. -/
@[simp] lemma contains_empty (a : α) : (empty : Distinct α).contains a = false := rfl

/-- Values are added list by list as if the lists were one. -/
lemma insertAll_append (s : Distinct α) (xs ys : List α) :
    s.insertAll (xs ++ ys) = (s.insertAll xs).insertAll ys :=
  List.foldl_append

variable [EquivBEq α]

/-- Equal values are contained in the same collections. -/
lemma contains_congr {a b : α} (h : (a == b) = true) (s : Distinct α) :
    s.contains a = s.contains b := by
  simp only [contains]
  congr 1
  funext x
  exact BEq.congr_right h

/-- Adding a value adds that value and the values equal to it. -/
lemma contains_insert (s : Distinct α) (a b : α) :
    (s.insert a).contains b = (s.contains b || (a == b)) := by
  unfold insert
  split
  case isTrue h =>
    cases hab : a == b
    · simp
    · rw [← contains_congr hab s, h]
      rfl
  case isFalse h => simp [contains]

/-- **Growth by a list of values**: afterwards a value is contained if it was before, or if it
equals one of the list. -/
theorem contains_insertAll (s : Distinct α) (values : List α) (b : α) :
    (s.insertAll values).contains b = (s.contains b || values.any (· == b)) := by
  induction values generalizing s with
  | nil => simp [insertAll]
  | cons a rest ih =>
    have hstep : s.insertAll (a :: rest) = (s.insert a).insertAll rest := rfl
    rw [hstep, ih, contains_insert, List.any_cons, Bool.or_assoc]

/-- The distinct values of a list contain what equals one of the list. -/
lemma contains_ofList (values : List α) (b : α) :
    (ofList values).contains b = values.any (· == b) := by
  rw [ofList, contains_insertAll, contains_empty, Bool.false_or]

/-! ### Which of equal values is kept -/

/-- Of the values equal to `b`, adding `a` keeps the one that was there before. -/
lemma find?_insert (s : Distinct α) (a b : α) :
    (s.insert a).values.find? (· == b) =
      (s.values.find? (· == b)).or (if a == b then some a else none) := by
  unfold insert
  split
  case isTrue h =>
    split
    · rename_i hab
      have hb : s.contains b = true := contains_congr hab s ▸ h
      obtain ⟨x, hx⟩ := Option.isSome_iff_exists.mp (List.find?_isSome.mpr (List.any_eq_true.mp hb))
      rw [hx, Option.some_or]
    · rw [Option.or_none]
  case isFalse h =>
    rw [List.find?_append, List.find?_singleton]

/-- Of the values equal to `b`, adding a list keeps the one that was there before, or else the first
of the list. -/
lemma find?_insertAll (s : Distinct α) (values : List α) (b : α) :
    (s.insertAll values).values.find? (· == b) =
      (s.values.find? (· == b)).or (values.find? (· == b)) := by
  induction values generalizing s with
  | nil => exact (Option.or_none ..).symm
  | cons a rest ih =>
    have hstep : s.insertAll (a :: rest) = (s.insert a).insertAll rest := rfl
    rw [hstep, ih, find?_insert, Option.or_assoc, List.find?_cons]
    cases a == b <;> simp

/-- A value of a collection is the only one that equals it. -/
lemma find?_eq_self (s : Distinct α) {a : α} (h : a ∈ s.values) :
    s.values.find? (· == a) = some a := by
  obtain ⟨values, hapart⟩ := s
  dsimp only at h ⊢
  induction values with
  | nil => exact absurd h List.not_mem_nil
  | cons x rest ih =>
    obtain ⟨hx, hrest⟩ := List.pairwise_cons.mp hapart
    rcases List.mem_cons.mp h with rfl | h
    · exact List.find?_cons_of_pos BEq.rfl
    · rw [List.find?_cons_of_neg (Bool.not_eq_true _ ▸ hx a h)]
      exact ih hrest h

/-- **First comers stay**: a value is kept of a list iff it is the first one that equals it. -/
theorem mem_ofList_iff (values : List α) (a : α) :
    a ∈ (ofList values).values ↔ values.find? (· == a) = some a := by
  have hfind : (ofList values).values.find? (· == a) = values.find? (· == a) := by
    rw [ofList, find?_insertAll]
    rfl
  constructor
  · intro h
    rw [← hfind, find?_eq_self _ h]
  · intro h
    rw [← hfind] at h
    exact List.mem_of_find?_eq_some h

/-! ### Equality as sets -/

variable (α) in
/-- Values that the boolean equality identifies. -/
def identified : Setoid α where
  r a b := (a == b) = true
  iseqv := ⟨fun _ => BEq.rfl, fun h => BEq.symm h, fun h k => BEq.trans h k⟩

/-- The values of a collection as classes of equal values. -/
def classes (s : Distinct α) : List (Quotient (identified α)) := s.values.map (Quotient.mk _)

/-- A class belongs to a collection iff its values are contained. -/
lemma mk_mem_classes (s : Distinct α) (a : α) :
    Quotient.mk (identified α) a ∈ s.classes ↔ s.contains a = true := by
  simp only [classes, List.mem_map, contains, List.any_eq_true]
  constructor
  · rintro ⟨x, hx, hxa⟩
    exact ⟨x, hx, Quotient.exact hxa⟩
  · rintro ⟨x, hx, hxa⟩
    exact ⟨x, hx, Quotient.sound hxa⟩

/-- No class occurs twice, since no two values of a collection are equal. -/
lemma nodup_classes (s : Distinct α) : s.classes.Nodup :=
  s.nodup_map ⟨fun h => Quotient.sound h, fun h => Quotient.exact h⟩

/-- Containment of values is inclusion of classes. -/
lemma classes_subset_iff (s t : Distinct α) :
    s.classes ⊆ t.classes ↔ ∀ a, s.contains a = true → t.contains a = true := by
  constructor
  · intro h a ha
    exact (mk_mem_classes t a).mp (h ((mk_mem_classes s a).mpr ha))
  · intro h c
    induction c using Quotient.ind with
    | _ a =>
      intro ha
      exact (mk_mem_classes t a).mpr (h a ((mk_mem_classes s a).mp ha))

/-- All values of a collection are contained in another one iff its classes are classes of the
other. -/
lemma all_contains_iff (s t : Distinct α) :
    s.values.all t.contains = true ↔ s.classes ⊆ t.classes := by
  rw [List.all_eq_true, classes]
  constructor
  · intro h c hc
    obtain ⟨a, ha, rfl⟩ := List.mem_map.mp hc
    exact (mk_mem_classes t a).mpr (h a ha)
  · intro h a ha
    exact (mk_mem_classes t a).mp (h (List.mem_map_of_mem ha))

/-- **Collections are the same iff they contain the same values.**

**Proof sketch.** Classes do not repeat, so an inclusion of the classes of one collection among as
many classes of the other is a permutation, and permuted classes are the same contents. -/
theorem sameAs_iff (s t : Distinct α) :
    s.sameAs t = true ↔ ∀ a, s.contains a = t.contains a := by
  have hs : s.size = s.classes.length := by rw [size, classes, List.length_map]
  have ht : t.size = t.classes.length := by rw [size, classes, List.length_map]
  rw [sameAs, Bool.and_eq_true, beq_iff_eq, all_contains_iff, hs, ht]
  constructor
  · rintro ⟨hlen, hsub⟩ a
    have hperm : s.classes.Perm t.classes :=
      (s.nodup_classes.subperm hsub).perm_of_length_le (Nat.le_of_eq hlen.symm)
    rw [Bool.eq_iff_iff, ← mk_mem_classes, ← mk_mem_classes]
    exact hperm.mem_iff
  · intro h
    have hst : s.classes ⊆ t.classes := (classes_subset_iff s t).mpr fun a ha => h a ▸ ha
    have hts : t.classes ⊆ s.classes := (classes_subset_iff t s).mpr fun a ha => h a ▸ ha
    refine ⟨Nat.le_antisymm ?_ ?_, hst⟩
    · exact (s.nodup_classes.subperm hst).length_le
    · exact (t.nodup_classes.subperm hts).length_le

end Distinct

/-- **Harvests agree iff they count as many faults and contain the same values.** -/
theorem Harvest.beq_iff [EquivBEq α] (h k : Harvest α) :
    (h == k) = true ↔
      h.faults = k.faults ∧ ∀ a, h.values.contains a = k.values.contains a := by
  have hunfold : (h == k) = (h.faults == k.faults && h.values.sameAs k.values) := rfl
  rw [hunfold, Bool.and_eq_true, beq_iff_eq, Distinct.sameAs_iff]

end KeyIntake
