import KeyIntake.Dictionary
import Mathlib.Tactic.Lemma
/-!
# Entries by key

Entries whose keys increase are known by what they give for each key: the entries of a key are read
off by looking it up, and lists of entries that give the same for each key are equal. So a
dictionary is known by its values.

## Main results

* `Entries.Sorted.mem_iff` — an entry stands in a list iff looking up its key finds it.
* `Entries.Sorted.ext` — lists of entries that give the same for each key are equal.
* `Dictionary.ext_get?` — so are dictionaries.
-/

set_option relaxedAutoImplicit false
set_option autoImplicit false

namespace KeyIntake

namespace Entries

variable {α : Type} {k : String} {v : α} {entries : List (String × α)}

/-- Keys are looked up from the front. -/
lemma get?_cons (k k₁ : String) (v : α) (entries : List (String × α)) :
    get? ((k, v) :: entries) k₁ = if k = k₁ then some v else get? entries k₁ := rfl

/-- What is found stands in the list. -/
lemma mem_of_get?_eq_some (h : get? entries k = some v) : (k, v) ∈ entries := by
  induction entries with
  | nil => simp [get?] at h
  | cons p rest ih =>
    obtain ⟨k', v'⟩ := p
    rw [get?_cons] at h
    split at h
    case isTrue heq =>
      cases heq
      cases h
      exact List.mem_cons_self
    case isFalse => exact List.mem_cons_of_mem _ (ih h)

/-- A key that no entry has is not found. -/
lemma get?_eq_none_iff : get? entries k = none ↔ ∀ p ∈ entries, p.1 ≠ k := by
  induction entries with
  | nil => simp [get?]
  | cons p rest ih =>
    obtain ⟨k', v'⟩ := p
    rw [get?_cons]
    by_cases heq : k' = k
    · simp [heq]
    · simp [heq, ih]

namespace Sorted

/-- The tail of a list with increasing keys has increasing keys. -/
lemma tail {p : String × α} (h : Sorted (p :: entries)) : Sorted entries :=
  (List.pairwise_cons.mp h).2

/-- The key of the first entry is that of no other one. -/
lemma get?_tail (h : Sorted ((k, v) :: entries)) : get? entries k = none := by
  rw [get?_eq_none_iff]
  intro p hp heq
  have hlt : k < p.1 := (List.pairwise_cons.mp h).1 p hp
  rw [heq] at hlt
  exact String.lt_irrefl k hlt

/-- Entries have different keys. -/
lemma nodup_keys (h : Sorted entries) : (entries.map Prod.fst).Nodup := by
  rw [List.Nodup, List.pairwise_map]
  exact h.imp fun hlt => String.ne_of_lt hlt

/-- **An entry stands in a list** iff looking up its key finds it. -/
theorem mem_iff (h : Sorted entries) : (k, v) ∈ entries ↔ get? entries k = some v := by
  refine ⟨fun hmem => ?_, mem_of_get?_eq_some⟩
  induction entries with
  | nil => simp at hmem
  | cons p rest ih =>
    obtain ⟨k', v'⟩ := p
    rw [get?_cons]
    rcases List.mem_cons.mp hmem with heq | hrest
    · cases heq
      simp
    · have hne : k' ≠ k := by
        intro heq
        have hlt : k' < k := (List.pairwise_cons.mp h).1 (k, v) hrest
        rw [heq] at hlt
        exact String.lt_irrefl k hlt
      rw [if_neg hne]
      exact ih h.tail hrest

/-- **Lists of entries that give the same for each key are equal.**

**Proof sketch.** The lists have the same members, and a list with increasing keys is the only one
of its members. -/
theorem ext {entries' : List (String × α)} (h : Sorted entries) (h' : Sorted entries')
    (hget : ∀ k, get? entries k = get? entries' k) : entries = entries' := by
  have hmem : ∀ p, p ∈ entries ↔ p ∈ entries' := by
    rintro ⟨k, v⟩
    rw [h.mem_iff, h'.mem_iff, hget]
  induction entries generalizing entries' with
  | nil =>
    cases entries' with
    | nil => rfl
    | cons q rest' => simpa using (hmem q)
  | cons p rest ih =>
    cases entries' with
    | nil => simpa using (hmem p)
    | cons q rest' =>
      -- the least keys of the two lists are the same
      have hpq : p = q := by
        rcases List.mem_cons.mp ((hmem p).mp List.mem_cons_self) with heq | hp
        · exact heq
        · rcases List.mem_cons.mp ((hmem q).mpr List.mem_cons_self) with heq | hq
          · exact heq.symm
          · have hlt : q.1 < p.1 := (List.pairwise_cons.mp h').1 p hp
            have hgt : p.1 < q.1 := (List.pairwise_cons.mp h).1 q hq
            exact absurd (String.lt_trans hlt hgt) (String.lt_irrefl _)
      subst hpq
      obtain ⟨k, v⟩ := p
      have hrest : ∀ k₁, get? rest k₁ = get? rest' k₁ := by
        intro k₁
        by_cases heq : k = k₁
        · rw [← heq, h.get?_tail, h'.get?_tail]
        · simpa [get?_cons, heq] using hget k₁
      rw [ih h.tail h'.tail hrest fun q => by
        obtain ⟨k₁, v₁⟩ := q
        rw [h.tail.mem_iff, h'.tail.mem_iff, hrest]]

end Sorted

end Entries

/-- **Dictionaries that give the same for each key are equal.** -/
theorem Dictionary.ext_get? {α : Type} {d d' : Dictionary α} (h : ∀ k, d.get? k = d'.get? k) :
    d = d' := by
  obtain ⟨entries, hsorted⟩ := d
  obtain ⟨entries', hsorted'⟩ := d'
  congr 1
  exact hsorted.ext hsorted' h

end KeyIntake
