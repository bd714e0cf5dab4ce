import KeyIntake.Proofs.Dictionary
import KeyIntake.TagQuery
import Mathlib.Data.List.Induction
/-!
# Queries and what they select

A query requires more than another one iff it selects less, over all tags that an item may have and
over items without tags. So a query is known by what it selects. Queries and tags that are given
pair by pair are known by the last value of each key.

## Main definitions

* `Dictionary.lastValue?` — the last value of a key in a list of pairs.
* `Item.IsTagged` — an item that was given tags one after the other.
* `TagQuery.SelectsByTags` — what queries select, and how they are made.

## Main results

* `Dictionary.get?_ofPairs` — of equal keys the last one counts.
* `TagQuery.entries_subset_iff` — a query requires more iff it selects less.
* `TagQuery.selectsByTags` — queries select by tags.
-/

set_option relaxedAutoImplicit false
set_option autoImplicit false

namespace KeyIntake

/-! ### Pairs one after the other -/

namespace Dictionary

variable {α : Type}

/-- The last value that a list of pairs gives a key. -/
def lastValue? (pairs : List (String × α)) (key : String) : Option α :=
  (pairs.filter fun p => p.1 = key).getLast?.map Prod.snd

/-- One more pair is the last one of its key. -/
lemma lastValue?_concat (pairs : List (String × α)) (k key : String) (v : α) :
    lastValue? (pairs ++ [(k, v)]) key = if key = k then some v else lastValue? pairs key := by
  rw [lastValue?, List.filter_append, List.filter_cons, List.filter_nil]
  by_cases h : key = k
  · rw [if_pos (decide_eq_true h.symm), if_pos h, List.getLast?_concat, Option.map_some]
  · rw [if_neg (mt of_decide_eq_true (Ne.symm h)), if_neg h, List.append_nil, lastValue?]

/-- The keys with a last value are those of the pairs. -/
lemma isSome_lastValue?_iff {pairs : List (String × α)} {key : String} :
    (lastValue? pairs key).isSome = true ↔ key ∈ pairs.map Prod.fst := by
  induction pairs using List.reverseRecOn with
  | nil => simp [lastValue?]
  | append_singleton pairs p ih =>
    rw [lastValue?_concat, List.map_append, List.mem_append, ← ih, List.map_singleton,
      List.mem_singleton]
    by_cases h : key = p.1 <;> simp [h]

/-- Where keys are different, the last value of a key is its only one. -/
lemma lastValue?_eq_some_iff {pairs : List (String × α)} {key : String} {v : α}
    (h : (pairs.map Prod.fst).Nodup) : lastValue? pairs key = some v ↔ (key, v) ∈ pairs := by
  induction pairs using List.reverseRecOn with
  | nil => simp [lastValue?]
  | append_singleton pairs p ih =>
    obtain ⟨k, v'⟩ := p
    rw [List.map_append, List.map_singleton, List.nodup_append] at h
    obtain ⟨hpairs, -, hlast⟩ := h
    rw [lastValue?_concat, List.mem_append, List.mem_singleton, Prod.mk.injEq]
    by_cases hkey : key = k
    · subst hkey
      have hfirst : (key, v) ∉ pairs := fun hmem =>
        hlast key (List.mem_map_of_mem hmem) key List.mem_cons_self rfl
      simp [hfirst, eq_comm]
    · simp [hkey, ih hpairs]

/-- One more pair is inserted last. -/
lemma ofPairs_concat (pairs : List (String × α)) (p : String × α) :
    ofPairs (pairs ++ [p]) = (ofPairs pairs).insert p.1 p.2 := by
  simp only [ofPairs, insert, Entries.insertAll, List.foldl_append, List.foldl_cons,
    List.foldl_nil]

/-- Pairs may be inserted one after the other. -/
lemma foldl_insert (pairs : List (String × α)) :
    pairs.foldl (fun d p => d.insert p.1 p.2) .empty = ofPairs pairs := by
  induction pairs using List.reverseRecOn with
  | nil => rfl
  | append_singleton pairs p ih =>
    rw [List.foldl_append, ih, ofPairs_concat, List.foldl_cons, List.foldl_nil]

/-- **Of equal keys the last one counts.** -/
theorem get?_ofPairs (pairs : List (String × α)) (key : String) :
    (ofPairs pairs).get? key = lastValue? pairs key := by
  induction pairs using List.reverseRecOn with
  | nil => rfl
  | append_singleton pairs p ih =>
    rw [ofPairs_concat, get?_insert, lastValue?_concat, ih]

end Dictionary

namespace Item

/-- An item that was given tags one after the other, and possibly versions in between. -/
inductive IsTagged : List (String × String) → Item → Prop
  | new (name : String) : IsTagged [] { name }
  | tag {pairs : List (String × String)} {item : Item} (key value : String) :
      IsTagged pairs item → IsTagged (pairs ++ [(key, value)]) (item.withTag key value)
  | version {pairs : List (String × String)} {item : Item} (version : String) :
      IsTagged pairs item → IsTagged pairs (item.withVersion version)

/-- An item has the last value that it was given for a key. -/
lemma IsTagged.get?_tags {pairs : List (String × String)} {item : Item} (h : IsTagged pairs item)
    (key : String) : item.tags.bind (·.get? key) = Dictionary.lastValue? pairs key := by
  induction h with
  | new => rfl
  | @tag pairs item k v _ ih =>
    have hold : (item.tags.getD .empty).get? key = item.tags.bind (·.get? key) := by
      cases item.tags <;> rfl
    rw [Dictionary.lastValue?_concat, ← ih, ← hold]
    exact Dictionary.get?_insert _ k key v
  | version _ _ ih => exact ih

end Item

namespace TagQuery

variable {f g q : TagQuery} {tags : Option Tags}

/-! ### What is selected -/

/-- A query selects the tags that have its value for each of its keys. -/
lemma selects_iff : q.selects tags = true ↔
    ∀ key value, q.required.get? key = some value → tags.bind (·.get? key) = some value := by
  rw [selects, List.all_eq_true]
  constructor
  · intro h key value hget
    exact beq_iff_eq.mp (h (key, value) (q.required.sorted.mem_iff.mpr hget))
  · rintro h ⟨key, value⟩ hmem
    exact beq_iff_eq.mpr (h key value (q.required.sorted.mem_iff.mp hmem))

/-- A query selects the tags that it requires. -/
lemma selects_required (q : TagQuery) : q.selects (some q.required) = true :=
  selects_iff.mpr fun _ _ h => h

/-- **A query requires more iff it selects less.** -/
theorem entries_subset_iff : (∀ p ∈ f.required.entries, p ∈ g.required.entries) ↔
    ∀ tags, g.selects tags = true → f.selects tags = true := by
  constructor
  · intro h tags hg
    refine selects_iff.mpr fun key value hget => selects_iff.mp hg key value ?_
    exact g.required.sorted.mem_iff.mp (h _ (f.required.sorted.mem_iff.mpr hget))
  · rintro h ⟨key, value⟩ hmem
    -- the tags that the one query requires tell the two apart
    have hf := h (some g.required) g.selects_required
    exact g.required.sorted.mem_iff.mpr
      (selects_iff.mp hf key value (f.required.sorted.mem_iff.mp hmem))

/-- **A query is known by what it selects.** -/
theorem ext_selects (h : ∀ tags, f.selects tags = g.selects tags) : f = g := by
  have hf := entries_subset_iff.mpr fun tags hg => (h tags).trans hg
  have hg := entries_subset_iff.mpr fun tags hf => (h tags).symm.trans hf
  have hrequired : f.required = g.required := by
    refine Dictionary.ext_get? fun key => Option.ext fun value => ?_
    rw [Dictionary.get?, Dictionary.get?, ← f.required.sorted.mem_iff,
      ← g.required.sorted.mem_iff]
    exact ⟨hf (key, value), hg (key, value)⟩
  cases f
  cases g
  congr 1

/-- Without tags only the query is satisfied that requires none. -/
lemma selects_none_iff : q.selects none = true ↔ q.isEmpty = true := by
  rw [selects, isEmpty, Dictionary.isEmpty]
  cases q.required.entries <;> simp

/-! ### Queries and items made pair by pair -/

/-- A query that is made pair by pair is that of the list of pairs. -/
lemma foldl_require (pairs : List (String × String)) :
    pairs.foldl (fun q p => q.require p.1 p.2) {} = ofPairs pairs := by
  induction pairs using List.reverseRecOn with
  | nil => rfl
  | append_singleton pairs p ih =>
    rw [List.foldl_append, ih, List.foldl_cons, List.foldl_nil, require, ofPairs, ofPairs,
      Dictionary.ofPairs_concat]

/-- **What queries select, and how they are made.** -/
structure SelectsByTags : Prop where
  /-- A query requires all that another one does iff it selects nothing that this one does not. -/
  embeds : ∀ f g : TagQuery, (∀ p ∈ f.required.entries, p ∈ g.required.entries) ↔
    ∀ tags, g.selects tags = true → f.selects tags = true
  /-- Queries are equal iff they select the same. -/
  separates : ∀ f g : TagQuery, f = g ↔ ∀ tags, f.selects tags = g.selects tags
  /-- A query may be made pair by pair, from a list of pairs or from a dictionary of them. -/
  made : ∀ pairs : List (String × String),
    pairs.foldl (fun q p => q.require p.1 p.2) {} = ofPairs pairs ∧
      ⟨pairs.foldl (fun d p => d.insert p.1 p.2) .empty⟩ = ofPairs pairs
  /-- It requires the last value of each key. -/
  requires : ∀ pairs key, (ofPairs pairs).required.get? key = Dictionary.lastValue? pairs key
  /-- It selects an item iff the last values of the item are the same for its keys. -/
  matched : ∀ pairs pairs' item, Item.IsTagged pairs' item →
    ((ofPairs pairs).selects item.tags = true ↔ ∀ key ∈ pairs.map Prod.fst,
      Dictionary.lastValue? pairs key = Dictionary.lastValue? pairs' key)
  /-- An item without tags is selected by the query that requires none. -/
  untagged : ∀ (q : TagQuery) (item : Item), item.tags = none →
    (q.selects item.tags = true ↔ q.isEmpty = true)

/-- **Queries select by tags**, in the opposite order of what they require. -/
theorem selectsByTags : SelectsByTags where
  embeds f g := entries_subset_iff
  separates f g := ⟨fun h tags => by rw [h], ext_selects⟩
  made pairs := ⟨foldl_require pairs, congrArg TagQuery.mk (Dictionary.foldl_insert pairs)⟩
  requires pairs key := Dictionary.get?_ofPairs pairs key
  matched pairs pairs' item h := by
    have hget (key) : (ofPairs pairs).required.get? key = Dictionary.lastValue? pairs key :=
      Dictionary.get?_ofPairs pairs key
    simp only [selects_iff, hget, h.get?_tags]
    constructor
    · intro hall key hkey
      obtain ⟨value, hvalue⟩ :=
        Option.isSome_iff_exists.mp (Dictionary.isSome_lastValue?_iff.mpr hkey)
      rw [hvalue, hall key value hvalue]
    · intro hall key value hvalue
      have hkey : key ∈ pairs.map Prod.fst :=
        Dictionary.isSome_lastValue?_iff.mp (hvalue ▸ rfl)
      rw [← hall key hkey, hvalue]
  untagged q item h := by rw [h, selects_none_iff]

end TagQuery

end KeyIntake
