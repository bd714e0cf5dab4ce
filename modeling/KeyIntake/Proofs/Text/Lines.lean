import KeyIntake.Proofs.Text.Basic
import KeyIntake.Text.Lines
import Mathlib.Data.List.Basic
/-!
# Entries and how they are laid out

The entries of a text are what stands between its line feeds, trimmed, as far as something is left.
That a carriage return before a line feed belongs to the end of a line makes no difference to them.
A text has certain entries iff it lays them out: each on a row of its own, with padding around it,
among rows that hold nothing else but padding, each row but the last being ended.

## Main definitions

* `Text.rows` — what stands between line feeds, trimmed, as far as something is left.
* `Text.IsPadding`, `Text.IsEntry` — what may stand around an entry, and what an entry is.
* `Text.Row`, `Text.LaysOut` — the ways to lay out entries.

## Main results

* `Text.entries_eq_rows` — the entries of a text are its rows.
* `Text.laysOut_iff` — a text lays out its rows and nothing else.
* `Text.laysOut_lines` — all entries can be laid out together.
-/

set_option relaxedAutoImplicit false
set_option autoImplicit false

namespace KeyIntake

namespace Text

variable {xs ys : List String} {row rest cs : List Char}

/-! ### Entries between line feeds -/

/-- What stands between the line feeds of a text, trimmed, as far as something is left. -/
def rows (cs : List Char) : List String :=
  (((cs.splitOn '\n').map trim).filter fun row => !row.isEmpty).map String.ofList

/-- The pieces of a text are what it is split into at line feeds. -/
lemma pieces_eq_splitOn (cs : List Char) : pieces cs = cs.splitOn '\n' := by
  induction cs with
  | nil => rw [pieces, List.splitOn_nil]
  | cons c cs ih =>
    rw [pieces, List.splitOn_cons_eq_if_modifyHead, ih]
    by_cases hc : c = '\n'
    · rw [if_pos hc, if_pos (beq_iff_eq.mpr hc)]
    · rw [if_neg hc, if_neg (mt beq_iff_eq.mp hc)]
      cases hsplit : cs.splitOn '\n' with
      | nil => exact absurd hsplit (List.splitOn_ne_nil '\n' cs)
      | cons piece rest => rfl

/-- A carriage return that is dropped would be trimmed. -/
lemma trim_dropReturn (row : List Char) : trim (dropReturn row) = trim row := by
  unfold dropReturn
  split
  case isTrue hlast =>
    obtain ⟨front, rfl⟩ := List.getLast?_eq_some_iff.mp hlast
    have hreturn : ∀ c ∈ ['\r'], isBlank c = true := List.forall_mem_singleton.mpr (by decide)
    have htrim : trim ([] ++ (front ++ ['\r'])) = trim front :=
      trimBy_append (fun c hc => absurd hc List.not_mem_nil) hreturn
    rw [List.dropLast_concat, ← htrim, List.nil_append]
  case isFalse => rfl

/-- **The entries of a text are its rows.** -/
theorem entries_eq_rows (s : String) : entries s = rows s.toList := by
  rw [entries, lines, rows, ← pieces_eq_splitOn]
  generalize pieces s.toList = ps
  congr 1
  induction ps using endLines.induct with
  | case1 => rfl
  | case2 piece hempty =>
    -- a text that ends with a line feed has no line behind it, and no entry either
    rw [endLines, if_pos hempty, List.isEmpty_iff.mp hempty]
    rfl
  | case3 piece hpiece => rw [endLines, if_neg hpiece]
  | case4 piece next ps ih =>
    rw [endLines, List.map_cons, List.map_cons, List.filter_cons, List.filter_cons, ih,
      trim_dropReturn]

/-! ### Layouts -/

/-- Padding: blank characters that end no line. -/
def IsPadding (cs : List Char) : Prop := ∀ c ∈ cs, isBlank c = true ∧ c ≠ '\n'

/-- Nothing is padding. -/
lemma isPadding_nil : IsPadding [] := fun _ hc => absurd hc List.not_mem_nil

/-- A text that may be an entry. -/
structure IsEntry (x : String) : Prop where
  nonempty : x ≠ ""
  unbroken : '\n' ∉ x.toList
  head : ∀ c ∈ x.toList.head?, isBlank c = false
  last : ∀ c ∈ x.toList.getLast?, isBlank c = false

/-- A row with an entry or with none. -/
inductive Row : List String → List Char → Prop
  | blank {row : List Char} : IsPadding row → Row [] row
  | entry {x : String} {front back : List Char} : IsEntry x → IsPadding front → IsPadding back →
      Row [x] (front ++ (x.toList ++ back))

/-- The ends of a line. -/
def terminators : List (List Char) := [['\n'], ['\r', '\n']]

/-- A text lays out entries in rows. Each row but the last is ended. -/
inductive LaysOut : List String → List Char → Prop
  | last {xs : List String} {row : List Char} : Row xs row → LaysOut xs row
  | line {xs ys : List String} {row terminator rest : List Char} :
      Row xs row → terminator ∈ terminators → LaysOut ys rest →
      LaysOut (xs ++ ys) (row ++ (terminator ++ rest))

/-- A text without a line feed has one entry at most. -/
lemma rows_of_unbroken (h : '\n' ∉ row) :
    rows row = if (trim row).isEmpty then [] else [String.ofList (trim row)] := by
  rw [rows, List.splitOn_eq_singleton h, List.map_singleton, List.filter_cons, List.filter_nil]
  cases (trim row).isEmpty <;> rfl

namespace Row

/-- A row has no line feed in it. -/
lemma unbroken (h : Row xs row) : '\n' ∉ row := by
  rcases h with hblank | ⟨hx, hfront, hback⟩
  · exact fun hmem => (hblank _ hmem).2 rfl
  · simp only [List.mem_append, not_or]
    exact ⟨fun hmem => (hfront _ hmem).2 rfl, hx.unbroken, fun hmem => (hback _ hmem).2 rfl⟩

/-- A carriage return at the end of a row is padding. -/
lemma append_return (h : Row xs row) : Row xs (row ++ ['\r']) := by
  have hpadding {cs : List Char} (hcs : IsPadding cs) : IsPadding (cs ++ ['\r']) :=
    List.forall_mem_append.mpr ⟨hcs, List.forall_mem_singleton.mpr (by decide)⟩
  rcases h with hblank | ⟨hx, hfront, hback⟩
  · exact .blank (hpadding hblank)
  · rw [List.append_assoc, List.append_assoc]
    exact .entry hx hfront (hpadding hback)

/-- The entry of a row is what is left of it by trimming. -/
lemma rows_eq (h : Row xs row) : rows row = xs := by
  rw [rows_of_unbroken h.unbroken]
  rcases h with hblank | ⟨hx, hfront, hback⟩
  · have hnil : trim row = [] := trimBy_eq_nil_iff.mpr fun c hc => (hblank c hc).1
    rw [hnil]
    rfl
  · rename_i x front back
    have htrim : trim (front ++ (x.toList ++ back)) = x.toList :=
      (trimBy_append (fun c hc => (hfront c hc).1) fun c hc => (hback c hc).1).trans
        (trimBy_eq_self hx.head hx.last)
    have hne : ¬ x.toList.isEmpty = true := by
      rw [List.isEmpty_iff, String.toList_eq_nil_iff]
      exact hx.nonempty
    rw [htrim, if_neg hne, String.ofList_toList]

/-- Every text without a line feed is a row. -/
lemma of_unbroken (h : '\n' ∉ row) : Row (rows row) row := by
  rw [rows_of_unbroken h]
  split
  case isTrue hnil =>
    have hblank := trimBy_eq_nil_iff.mp (List.isEmpty_iff.mp hnil)
    exact .blank fun c hc => ⟨hblank c hc, fun heq => h (heq ▸ hc)⟩
  case isFalse hne =>
    obtain ⟨front, back, hrow, hfront, hback⟩ := exists_trimBy isBlank row
    rw [← trim] at hrow
    have hunbroken : '\n' ∉ front ∧ '\n' ∉ trim row ∧ '\n' ∉ back := by
      rwa [hrow, List.mem_append, List.mem_append, not_or, not_or] at h
    have hentry : IsEntry (String.ofList (trim row)) := by
      rw [List.isEmpty_iff] at hne
      refine ⟨mt String.ofList_eq_empty_iff.mp hne, ?_, ?_, ?_⟩ <;> rw [String.toList_ofList]
      · exact hunbroken.2.1
      · exact head?_trimBy
      · exact getLast?_trimBy
    have hrow' : Row [String.ofList (trim row)]
        (front ++ ((String.ofList (trim row)).toList ++ back)) :=
      .entry hentry (fun c hc => ⟨hfront c hc, fun heq => hunbroken.1 (heq ▸ hc)⟩)
        fun c hc => ⟨hback c hc, fun heq => hunbroken.2.2 (heq ▸ hc)⟩
    rwa [String.toList_ofList, ← hrow] at hrow'

end Row

/-- What stands before and behind a line feed is laid out on its own. -/
lemma rows_append_cons (cs rest : List Char) :
    rows (cs ++ '\n' :: rest) = rows cs ++ rows rest := by
  rw [rows, List.splitOn_append_cons_self, List.map_append, List.filter_append, List.map_append]
  rfl

/-- A text lays out its rows.

**Proof sketch.** Induction on the length. The text up to the first line feed is a row. -/
lemma laysOut_rows (cs : List Char) : LaysOut (rows cs) cs := by
  by_cases hmem : '\n' ∈ cs
  · obtain ⟨row, rest, hcs, hrow⟩ := List.eq_append_cons_of_mem hmem
    rw [hcs, rows_append_cons]
    have hline : ['\n'] ∈ terminators := List.mem_cons_self
    exact .line (.of_unbroken hrow) hline (laysOut_rows rest)
  · exact .last (.of_unbroken hmem)
termination_by cs.length
decreasing_by
  rw [hcs, List.length_append, List.length_cons]
  omega

/-- **A text lays out its rows and nothing else.** -/
theorem laysOut_iff : LaysOut xs cs ↔ rows cs = xs := by
  constructor
  · intro h
    induction h with
    | last hrow => exact hrow.rows_eq
    | @line xs ys row terminator rest hrow hterminator _ ih =>
      rcases List.mem_pair.mp hterminator with rfl | rfl
      · rw [List.singleton_append, rows_append_cons, hrow.rows_eq, ih]
      · -- the carriage return belongs to the row as well as to the end of the line
        have hcs : row ++ (['\r', '\n'] ++ rest) = (row ++ ['\r']) ++ '\n' :: rest := by
          rw [List.append_assoc]
          rfl
        rw [hcs, rows_append_cons, hrow.append_return.rows_eq, ih]
  · rintro rfl
    exact laysOut_rows cs

/-- Returns, other blanks and a missing line feed at the end make no difference. -/
example : entries "\r\n alpha\u00a0\r\n\u2028\n\tbeta gamma\r" = ["alpha", "beta gamma"] := by
  decide +kernel

/-- Entries on lines of their own are a layout. -/
theorem laysOut_lines {xs : List String} (h : ∀ x ∈ xs, IsEntry x) :
    LaysOut xs (xs.flatMap fun x => x.toList ++ ['\n']) := by
  induction xs with
  | nil => exact .last (.blank isPadding_nil)
  | cons x xs ih =>
    obtain ⟨hx, hxs⟩ := List.forall_mem_cons.mp h
    have hrow : Row [x] x.toList := by
      simpa using Row.entry hx isPadding_nil isPadding_nil
    rw [List.flatMap_cons, List.append_assoc]
    exact .line hrow List.mem_cons_self (ih hxs)

end Text

end KeyIntake
