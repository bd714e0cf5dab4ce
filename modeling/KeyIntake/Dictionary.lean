/-!
# Dictionaries with text keys

A dictionary lists its entries by strictly increasing key, in the order of code points. So a key
occurs once, and dictionaries with the same content are equal.

## Main definitions

* `Entries.insert`, `Entries.get?` — the operations on lists of entries.
* `Entries.Sorted` — keys increase strictly.
* `Dictionary` — a sorted list of entries.

## Main results

* `Entries.get?_insert` — after an insertion the key has the new value and other keys are
  untouched.
* `Entries.Sorted.insert` — insertion keeps the order.
-/

set_option autoImplicit false

namespace KeyIntake

namespace Entries

variable {α : Type}

/-- Give a key a value: in place of its old value, or before the first larger key. -/
def insert (k : String) (v : α) : List (String × α) → List (String × α)
  | [] => [(k, v)]
  | (k', v') :: rest =>
    if k' = k then (k, v) :: rest
    else if k < k' then (k, v) :: (k', v') :: rest
    else (k', v') :: insert k v rest

/-- The value of a key. -/
def get? (entries : List (String × α)) (k : String) : Option α :=
  match entries with
  | [] => none
  | (k', v) :: rest => if k' = k then some v else get? rest k

/-- Keys increase strictly. -/
def Sorted (entries : List (String × α)) : Prop := entries.Pairwise fun p q => p.1 < q.1

/-- Insert pairs from left to right, so that of equal keys the last one counts. -/
def insertAll (pairs : List (String × α)) (entries : List (String × α)) : List (String × α) :=
  pairs.foldl (fun acc p => insert p.1 p.2 acc) entries

theorem get?_insert_self (k : String) (v : α) (entries : List (String × α)) :
    get? (insert k v entries) k = some v := by
  induction entries with
  | nil => simp [insert, get?]
  | cons p rest ih =>
    obtain ⟨k', v'⟩ := p
    simp only [insert]
    split
    · simp [get?]
    · split
      · simp [get?]
      · rename_i hne _
        simp [get?, hne, ih]

theorem get?_insert_of_ne {k k₁ : String} (h : k₁ ≠ k) (v : α) (entries : List (String × α)) :
    get? (insert k v entries) k₁ = get? entries k₁ := by
  have h' : k ≠ k₁ := fun e => h e.symm
  induction entries with
  | nil => simp [insert, get?, h']
  | cons p rest ih =>
    obtain ⟨k', v'⟩ := p
    simp only [insert]
    split
    · rename_i heq
      subst heq
      simp [get?, h']
    · split
      · simp [get?, h']
      · simp [get?, ih]

/-- After an insertion the key has the new value and other keys are untouched. -/
theorem get?_insert (k k₁ : String) (v : α) (entries : List (String × α)) :
    get? (insert k v entries) k₁ = if k₁ = k then some v else get? entries k₁ := by
  split
  · rename_i h
    rw [h, get?_insert_self]
  · rename_i h
    exact get?_insert_of_ne h v entries

theorem mem_insert {k : String} {v : α} {entries : List (String × α)} {p : String × α}
    (h : p ∈ insert k v entries) : p = (k, v) ∨ p ∈ entries := by
  induction entries with
  | nil => simpa [insert] using h
  | cons q rest ih =>
    obtain ⟨k', v'⟩ := q
    simp only [insert] at h
    split at h
    · simp only [List.mem_cons] at h ⊢
      rcases h with h | h
      · exact .inl h
      · exact .inr (.inr h)
    · split at h
      · simpa using h
      · simp only [List.mem_cons] at h ⊢
        rcases h with h | h
        · exact .inr (.inl h)
        · rcases ih h with h | h
          · exact .inl h
          · exact .inr (.inr h)

/-- Insertion keeps the keys strictly increasing. -/
theorem Sorted.insert {entries : List (String × α)} (h : Sorted entries) (k : String) (v : α) :
    Sorted (Entries.insert k v entries) := by
  induction entries with
  | nil => simp [Entries.insert, Sorted]
  | cons p rest ih =>
    obtain ⟨k', v'⟩ := p
    simp only [Sorted, List.pairwise_cons] at h
    simp only [Entries.insert]
    split
    · rename_i heq
      subst heq
      simp only [Sorted, List.pairwise_cons]
      exact h
    · rename_i hne
      split
      · rename_i hlt
        simp only [Sorted, List.pairwise_cons, List.mem_cons]
        refine ⟨?_, h⟩
        rintro q (rfl | hq)
        · exact hlt
        · exact String.lt_trans hlt (h.1 q hq)
      · rename_i hnlt
        simp only [Sorted, List.pairwise_cons]
        refine ⟨?_, ih h.2⟩
        intro q hq
        rcases mem_insert hq with rfl | hq
        · exact String.not_le.mp fun hle => hne (String.le_antisymm (String.not_lt.mp hnlt) hle)
        · exact h.1 q hq

theorem Sorted.insertAll {entries : List (String × α)} (h : Sorted entries)
    (pairs : List (String × α)) : Sorted (Entries.insertAll pairs entries) := by
  induction pairs generalizing entries with
  | nil => exact h
  | cons p rest ih => exact ih (h.insert p.1 p.2)

end Entries

/-- A finite map from texts, with its entries by strictly increasing key. -/
structure Dictionary (α : Type) where
  entries : List (String × α)
  sorted : Entries.Sorted entries
  deriving DecidableEq

namespace Dictionary

variable {α : Type}

/-- The dictionary without entries. -/
def empty : Dictionary α := ⟨[], List.Pairwise.nil⟩

instance : Inhabited (Dictionary α) := ⟨empty⟩

/-- Give a key a value, in place of any it had. -/
def insert (d : Dictionary α) (k : String) (v : α) : Dictionary α :=
  ⟨Entries.insert k v d.entries, d.sorted.insert k v⟩

/-- The value of a key. -/
def get? (d : Dictionary α) (k : String) : Option α := Entries.get? d.entries k

/-- The dictionary of a list of pairs, in which a later pair replaces an earlier one of its key. -/
def ofPairs (pairs : List (String × α)) : Dictionary α :=
  ⟨Entries.insertAll pairs [], Entries.Sorted.insertAll List.Pairwise.nil pairs⟩

/-- The number of entries. -/
def size (d : Dictionary α) : Nat := d.entries.length

/-- There are no entries. -/
def isEmpty (d : Dictionary α) : Bool := d.entries.isEmpty

@[simp] theorem get?_empty (k : String) : (empty : Dictionary α).get? k = none := rfl

theorem get?_insert (d : Dictionary α) (k k₁ : String) (v : α) :
    (d.insert k v).get? k₁ = if k₁ = k then some v else d.get? k₁ :=
  Entries.get?_insert k k₁ v d.entries

end Dictionary

end KeyIntake
