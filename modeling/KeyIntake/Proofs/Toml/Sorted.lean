import KeyIntake.Proofs.Tree.Layer
import KeyIntake.Toml.Document
/-!
# Documents have sorted tables

Whatever a document says, in each table of its tree the keys increase. While the document is under
construction the same holds of its draft, and each statement keeps it so.

## Main definitions

* `Toml.Slot.Sorted`, `Toml.SortedFields` — in every table of a draft, keys increase.

## Main results

* `Toml.SortedFields.within` — a change inside a draft keeps it sorted.
* `Toml.sorted_value?` — values are sorted.
* `Toml.sorted_read?` — documents are sorted tables.
-/

set_option relaxedAutoImplicit false
set_option autoImplicit false

namespace KeyIntake

namespace Toml

/-! ### Drafts -/

/-- In every table of the draft of a value, keys increase. -/
inductive Slot.Sorted : Slot → Prop where
  | value {t : Tree} (h : t.Sorted) : Sorted (.value t)
  | table {origin : Origin} {fields : Fields} (hkeys : Entries.Sorted fields)
      (h : ∀ p ∈ fields, Sorted p.2) : Sorted (.table origin fields)
  | tables {finished : List Fields} {latest : Fields}
      (hkeys : ∀ fields ∈ latest :: finished, Entries.Sorted fields)
      (h : ∀ fields ∈ latest :: finished, ∀ p ∈ fields, Sorted p.2) :
      Sorted (.tables finished latest)

/-- In every table of the draft of a table, keys increase. -/
structure SortedFields (fields : Fields) : Prop where
  keys : Entries.Sorted fields
  slots : ∀ p ∈ fields, p.2.Sorted

/-- The trees of the keys of a table have the same keys. -/
lemma fieldTrees_eq_map (fields : Fields) :
    fieldTrees fields = fields.map fun p => (p.1, p.2.tree) := by
  induction fields with
  | nil => rfl
  | cons p rest ih =>
    obtain ⟨key, slot⟩ := p
    rw [fieldTrees, ih, List.map_cons]

/-- The trees of finished tables are those of their keys. -/
lemma tableTrees_eq_map (finished : List Fields) :
    tableTrees finished = finished.map fun fields => .table (fieldTrees fields) := by
  induction finished with
  | nil => rfl
  | cons fields rest ih => rw [tableTrees, ih, List.map_cons]

/-- Keys that increase in a draft increase in its tree. -/
lemma sorted_fieldTrees {fields : Fields} (hkeys : Entries.Sorted fields)
    (h : ∀ p ∈ fields, p.2.tree.Sorted) : (Tree.table (fieldTrees fields)).Sorted := by
  rw [fieldTrees_eq_map]
  refine .table ?_ ?_
  · rw [Entries.Sorted, List.pairwise_map]
    exact hkeys
  · intro q hq
    obtain ⟨p, hp, rfl⟩ := List.mem_map.mp hq
    exact h p hp

/-- **The tree of a sorted draft is sorted.** -/
lemma Slot.Sorted.tree {slot : Slot} (h : slot.Sorted) : slot.tree.Sorted := by
  induction h with
  | value h =>
    rw [Slot.tree]
    exact h
  | table hkeys _ ih =>
    rw [Slot.tree]
    exact sorted_fieldTrees hkeys ih
  | @tables finished latest hkeys _ ih =>
    rw [Slot.tree, tableTrees_eq_map]
    refine .list fun t ht => ?_
    rcases List.mem_append.mp ht with hfinished | hlatest
    · obtain ⟨fields, hfields, rfl⟩ := List.mem_map.mp hfinished
      have hmem : fields ∈ latest :: finished := List.mem_cons_of_mem _ hfields
      exact sorted_fieldTrees (hkeys fields hmem) (ih fields hmem)
    · rw [List.mem_singleton.mp hlatest]
      exact sorted_fieldTrees (hkeys _ List.mem_cons_self) (ih _ List.mem_cons_self)

namespace SortedFields

variable {fields fields' inner : Fields} {key : String} {slot : Slot}

/-- So is that of a draft without keys. -/
lemma empty : SortedFields [] := ⟨List.Pairwise.nil, by simp⟩

/-- The tree of the draft of a table is sorted. -/
lemma tree (h : SortedFields fields) : (Tree.table (fieldTrees fields)).Sorted :=
  sorted_fieldTrees h.keys fun p hp => (h.slots p hp).tree

/-- The value of a key is sorted. -/
lemma ofKey (h : SortedFields fields) (hget : Entries.get? fields key = some slot) : slot.Sorted :=
  h.slots (key, slot) (Entries.mem_of_get?_eq_some hget)

/-- A sorted value of a key keeps a draft sorted. -/
lemma insert (h : SortedFields fields) (hslot : slot.Sorted) :
    SortedFields (Entries.insert key slot fields) := by
  refine ⟨h.keys.insert key slot, fun p hp => ?_⟩
  rcases Entries.mem_insert hp with rfl | hmem
  · exact hslot
  · exact h.slots p hmem

/-- The draft of a table is sorted if those of its keys are. -/
lemma table (h : SortedFields fields) (origin : Origin) : (Slot.table origin fields).Sorted :=
  .table h.keys h.slots

/-- A table that is sorted has a sorted draft. -/
lemma of_table {origin : Origin} (h : (Slot.table origin fields).Sorted) : SortedFields fields := by
  cases h with
  | table hkeys hslots => exact ⟨hkeys, hslots⟩

/-- So does the latest of a list of tables. -/
lemma of_tables {finished : List Fields} (h : (Slot.tables finished fields).Sorted) :
    SortedFields fields := by
  cases h with
  | tables hkeys hslots => exact ⟨hkeys _ List.mem_cons_self, hslots _ List.mem_cons_self⟩

/-- The latest of a list of tables may be changed. -/
lemma tables {finished : List Fields} (h : (Slot.tables finished fields).Sorted)
    (h' : SortedFields fields') : (Slot.tables finished fields').Sorted := by
  cases h with
  | tables hkeys hslots =>
    refine .tables ?_ ?_
    · intro f hf
      rcases List.mem_cons.mp hf with rfl | hmem
      · exact h'.keys
      · exact hkeys f (List.mem_cons_of_mem _ hmem)
    · intro f hf
      rcases List.mem_cons.mp hf with rfl | hmem
      · exact h'.slots
      · exact hslots f (List.mem_cons_of_mem _ hmem)

/-- A list of tables may get one more. -/
lemma tables_concat {finished : List Fields} (h : (Slot.tables finished fields).Sorted) :
    (Slot.tables (finished ++ [fields]) []).Sorted := by
  cases h with
  | tables hkeys hslots =>
    refine .tables ?_ ?_
    · intro f hf
      rcases List.mem_cons.mp hf with rfl | hmem
      · exact List.Pairwise.nil
      · exact hkeys f (by simpa [or_comm] using hmem)
    · intro f hf
      rcases List.mem_cons.mp hf with rfl | hmem
      · simp
      · exact hslots f (by simpa [or_comm] using hmem)

/-! ### Changes of drafts -/

/-- An assignment keeps a draft sorted. -/
lemma assign {t : Tree} {path : List String} (ht : t.Sorted) (h : SortedFields fields)
    (hassign : assign? t path fields = some fields') : SortedFields fields' := by
  induction path generalizing fields fields' with
  | nil => simp [assign?] at hassign
  | cons key path ih =>
    cases path with
    | nil =>
      rw [assign?] at hassign
      split at hassign
      · cases hassign
        exact h.insert (.value ht)
      · simp at hassign
    | cons key' path =>
      rw [assign?] at hassign
      · split at hassign
        case h_1 =>
          obtain ⟨inner, hinner, rfl⟩ := Option.map_eq_some_iff.mp hassign
          exact h.insert ((ih empty hinner).table .dotted)
        case h_2 inner' hget =>
          obtain ⟨inner, hinner, rfl⟩ := Option.map_eq_some_iff.mp hassign
          exact h.insert ((ih (of_table (h.ofKey hget)) hinner).table .dotted)
        case h_3 => simp at hassign
      · simp

/-- **A change inside a draft keeps it sorted** if it does where it is made. -/
lemma within {change : Fields → Option Fields} {path : List String}
    (hchange : ∀ f f', SortedFields f → change f = some f' → SortedFields f')
    (h : SortedFields fields) (hwithin : within? change path fields = some fields') :
    SortedFields fields' := by
  induction path generalizing fields fields' with
  | nil => exact hchange _ _ h hwithin
  | cons key path ih =>
    rw [within?] at hwithin
    split at hwithin
    case h_1 =>
      obtain ⟨inner, hinner, rfl⟩ := Option.map_eq_some_iff.mp hwithin
      exact h.insert ((ih empty hinner).table .implied)
    case h_2 origin inner' hget =>
      obtain ⟨inner, hinner, rfl⟩ := Option.map_eq_some_iff.mp hwithin
      exact h.insert ((ih (of_table (h.ofKey hget)) hinner).table origin)
    case h_3 finished latest hget =>
      obtain ⟨inner, hinner, rfl⟩ := Option.map_eq_some_iff.mp hwithin
      have hslot := h.ofKey hget
      exact h.insert (tables hslot (ih (of_tables hslot) hinner))
    case h_4 => simp at hwithin

/-- Opening a table keeps a draft sorted. -/
lemma openHere (h : SortedFields fields) (hopen : openHere? key fields = some fields') :
    SortedFields fields' := by
  rw [openHere?] at hopen
  split at hopen
  case h_1 =>
    cases hopen
    exact h.insert (empty.table .header)
  case h_2 inner hget =>
    cases hopen
    exact h.insert ((of_table (h.ofKey hget)).table .header)
  case h_3 => simp at hopen

/-- So does adding a table to a list. -/
lemma addHere (h : SortedFields fields) (hadd : addHere? key fields = some fields') :
    SortedFields fields' := by
  rw [addHere?] at hadd
  split at hadd
  case h_1 =>
    cases hadd
    refine h.insert (.tables ?_ ?_) <;> simp [Entries.Sorted]
  case h_2 finished latest hget =>
    cases hadd
    exact h.insert (tables_concat (h.ofKey hget))
  case h_3 => simp at hadd

end SortedFields

/-! ### Values -/

/-- A reader of values reads sorted ones only. -/
def ReadsSorted (value? : List Char → Option (Tree × List Char)) : Prop :=
  ∀ cs t rest, value? cs = some (t, rest) → t.Sorted

/-- So does a reader that falls back on another one. -/
lemma ReadsSorted.orElse {first second : List Char → Option (Tree × List Char)}
    (h : ReadsSorted first) (h' : ReadsSorted second) :
    ReadsSorted fun cs => first cs <|> second cs := by
  intro cs t rest hcs
  cases hfirst : first cs with
  | none =>
    simp only [hfirst] at hcs
    exact h' cs t rest hcs
  | some p =>
    simp only [hfirst] at hcs
    exact h cs t rest (hfirst.trans hcs)

/-- Whole numbers are sorted. -/
lemma sorted_wholeNumber? {base : Nat} {negative : Bool} {digits : List Char} {t : Tree}
    (h : wholeNumber? base negative digits = some t) : t.Sorted := by
  obtain ⟨n, -, h⟩ := Option.bind_eq_some_iff.mp h
  split at h
  · split at h
    · cases h
      exact .signed _
    · simp at h
  · split at h
    · cases h
      exact .signed _
    · simp at h

lemma readsSorted_basedInteger? (base : Nat) : ReadsSorted (basedInteger? base) := by
  intro cs t rest h
  simp only [basedInteger?] at h
  split at h
  · simp at h
  · obtain ⟨t', ht', h⟩ := Option.map_eq_some_iff.mp h
    cases h
    exact sorted_wholeNumber? ht'

lemma readsSorted_integer? : ReadsSorted integer? := by
  intro cs t rest h
  unfold integer? at h
  split at h
  · exact readsSorted_basedInteger? 16 _ _ _ h
  · exact readsSorted_basedInteger? 8 _ _ _ h
  · exact readsSorted_basedInteger? 2 _ _ _ h
  · obtain ⟨p, -, h⟩ := Option.bind_eq_some_iff.mp h
    obtain ⟨t', ht', h⟩ := Option.map_eq_some_iff.mp h
    cases h
    exact sorted_wholeNumber? ht'

lemma readsSorted_float? : ReadsSorted float? := by
  intro cs t rest h
  obtain ⟨p, -, h⟩ := Option.bind_eq_some_iff.mp h
  dsimp only at h
  split at h
  on_goal 1 => split at h
  -- whatever stands behind the point, the number is read off its digits in one way
  all_goals
    obtain ⟨q, -, h⟩ := Option.bind_eq_some_iff.mp h
    split at h
    · simp at h
    · cases h
      exact .float _

lemma readsSorted_special? : ReadsSorted special? := by
  intro cs t rest h
  simp only [special?] at h
  split at h
  · cases h
    exact .float _
  · cases h
    exact .float _
  · simp at h

lemma readsSorted_moment? : ReadsSorted moment? := by
  intro cs t rest h
  obtain ⟨left, -, h⟩ := Option.map_eq_some_iff.mp h
  cases h
  exact Tree.Sorted.empty.insert (.text _)

/-- Scalars are sorted. -/
lemma readsSorted_scalar? : ReadsSorted scalar? := by
  intro cs t rest h
  unfold scalar? at h
  split at h
  · obtain ⟨p, -, h⟩ := Option.map_eq_some_iff.mp h
    cases h
    exact .text _
  · obtain ⟨p, -, h⟩ := Option.map_eq_some_iff.mp h
    cases h
    exact .text _
  · cases h
    exact .bool _
  · cases h
    exact .bool _
  · exact (readsSorted_special?.orElse (readsSorted_moment?.orElse
      (readsSorted_float?.orElse readsSorted_integer?))) _ _ _ h

section Nested

variable {value? : List Char → Option (Tree × List Char)} (hvalue : ReadsSorted value?)

include hvalue

/-- Lists of sorted items are sorted. -/
lemma sorted_items? {read : List Tree} {bound : Nat} {cs rest : List Char} {t : Tree}
    (hread : ∀ u ∈ read, u.Sorted) (h : items? value? read bound cs = some (t, rest)) :
    t.Sorted := by
  induction bound generalizing read cs with
  | zero => simp [items?] at h
  | succ bound ih =>
    rw [items?] at h
    split at h
    · cases h
      exact .list fun u hu => hread u (List.mem_reverse.mp hu)
    · obtain ⟨⟨u, left⟩, hu, h⟩ := Option.bind_eq_some_iff.mp h
      have hmore : ∀ v ∈ u :: read, v.Sorted := by
        intro v hv
        rcases List.mem_cons.mp hv with rfl | hmem
        · exact hvalue _ _ _ hu
        · exact hread v hmem
      dsimp only at h
      split at h
      · exact ih hmore h
      · cases h
        exact .list fun v hv => hmore v (List.mem_reverse.mp hv)
      · simp at h

/-- Tables of sorted values are sorted. -/
lemma sorted_assignments? {fields : Fields} {bound : Nat} {cs rest : List Char} {t : Tree}
    (hfields : SortedFields fields)
    (h : assignments? value? fields bound cs = some (t, rest)) : t.Sorted := by
  induction bound generalizing fields cs with
  | zero => simp [assignments?] at h
  | succ bound ih =>
    rw [assignments?] at h
    obtain ⟨⟨path, left⟩, -, h⟩ := Option.bind_eq_some_iff.mp h
    dsimp only at h
    split at h
    · obtain ⟨⟨u, left'⟩, hu, h⟩ := Option.bind_eq_some_iff.mp h
      obtain ⟨fields', hassign, h⟩ := Option.bind_eq_some_iff.mp h
      have hmore := hfields.assign (hvalue _ _ _ hu) hassign
      dsimp only at h
      split at h
      · exact ih hmore h
      · cases h
        exact hmore.tree
      · simp at h
    · simp at h

end Nested

/-- **Values are sorted**, however deep they nest. -/
lemma sorted_value? (depth : Nat) : ReadsSorted (value? depth) := by
  induction depth with
  | zero =>
    intro cs t rest h
    unfold value? at h
    split at h
    · simp at h
    · simp at h
    · exact readsSorted_scalar? _ _ _ h
  | succ depth ih =>
    intro cs t rest h
    unfold value? at h
    split at h
    · exact sorted_items? ih (by simp) h
    · dsimp only at h
      split at h
      · cases h
        exact .empty
      · exact sorted_assignments? ih .empty h
    · exact readsSorted_scalar? _ _ _ h

/-! ### Documents -/

/-- The value that a statement assigns is sorted. -/
lemma sorted_statement? {cs rest : List Char} {path : List String} {t : Tree}
    (h : statement? cs = some (.assign path t, rest)) : t.Sorted := by
  unfold statement? at h
  split at h
  iterate 4 simp at h
  · obtain ⟨p, -, h⟩ := Option.bind_eq_some_iff.mp h
    dsimp only at h
    split at h <;> simp at h
  · obtain ⟨p, -, h⟩ := Option.bind_eq_some_iff.mp h
    dsimp only at h
    split at h <;> simp at h
  · obtain ⟨p, -, h⟩ := Option.bind_eq_some_iff.mp h
    dsimp only at h
    split at h
    · obtain ⟨⟨u, left⟩, hu, h⟩ := Option.bind_eq_some_iff.mp h
      cases h
      exact sorted_value? depth _ _ _ hu
    · simp at h

/-- A statement whose value is sorted keeps a draft sorted. -/
lemma SortedFields.apply {d d' : Draft} {s : Statement} (h : SortedFields d.fields)
    (hs : ∀ path t, s = .assign path t → t.Sorted) (happly : d.apply? s = some d') :
    SortedFields d'.fields := by
  cases s with
  | blank =>
    cases happly
    exact h
  | assign path t =>
    obtain ⟨fields, hfields, rfl⟩ := Option.map_eq_some_iff.mp happly
    exact h.within (fun f f' hf hassign => hf.assign (hs path t rfl) hassign) hfields
  | openTable path =>
    obtain ⟨key, -, happly⟩ := Option.bind_eq_some_iff.mp happly
    obtain ⟨fields, hfields, rfl⟩ := Option.map_eq_some_iff.mp happly
    exact h.within (fun f f' hf hopen => hf.openHere hopen) hfields
  | addTable path =>
    obtain ⟨key, -, happly⟩ := Option.bind_eq_some_iff.mp happly
    obtain ⟨fields, hfields, rfl⟩ := Option.map_eq_some_iff.mp happly
    exact h.within (fun f f' hf hadd => hf.addHere hadd) hfields

/-- So do the statements of a text. -/
lemma SortedFields.statements {d d' : Draft} {bound : Nat} {cs : List Char}
    (h : SortedFields d.fields) (hstatements : statements? d bound cs = some d') :
    SortedFields d'.fields := by
  induction bound generalizing d cs with
  | zero => simp [statements?] at hstatements
  | succ bound ih =>
    rw [statements?] at hstatements
    obtain ⟨⟨s, left⟩, hs, hstatements⟩ := Option.bind_eq_some_iff.mp hstatements
    obtain ⟨d₁, hd₁, hstatements⟩ := Option.bind_eq_some_iff.mp hstatements
    obtain ⟨rest, -, hstatements⟩ := Option.bind_eq_some_iff.mp hstatements
    have hmore : SortedFields d₁.fields :=
      h.apply (fun path t heq => sorted_statement? (heq ▸ hs)) hd₁
    split at hstatements
    · cases hstatements
      exact hmore
    · exact ih hmore hstatements

/-- **Documents are sorted tables.** -/
theorem sorted_read? {text : String} {t : Tree} (h : read? text = some t) :
    t.isTable = true ∧ t.Sorted := by
  obtain ⟨d, hd, rfl⟩ := Option.map_eq_some_iff.mp h
  exact ⟨rfl, (SortedFields.empty.statements (d := {}) hd).tree⟩

end Toml

end KeyIntake
