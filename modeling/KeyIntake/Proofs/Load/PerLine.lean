import KeyIntake.Load.Ending
import KeyIntake.Proofs.Text.Lines
/-!
# Mapping line by line

An action on lines may keep a state of its own and may fail. A text is mapped by calling the action
with each of its rows, in order, until it fails or no row is left. The failure is that of the text
then, and otherwise the results of all rows are. So a text that lays out some entries is mapped like
the list of these entries.

## Main definitions

* `Mapping.GoesThrough`, `Mapping.FailsAt` — the two ways in which calls of an action end.
* `Mapping.recorded` — an action that takes down what it is called with.
* `Mapping.MapsRows` — how the rows of a text are mapped.

## Main results

* `Mapping.goesThrough_or_failsAt` — there is no third way.
* `Mapping.mapsRows` — a text is mapped row by row, up to the first failure.
-/

set_option relaxedAutoImplicit false
set_option autoImplicit false

namespace KeyIntake

namespace Mapping

variable {σ α : Type} {f : String → ExceptT Fault (StateM σ) α} {line : String}
  {lines calls : List String} {s s₁ s₂ : σ} {v : α} {values : List α} {fault : Fault}

/-! ### Calls one after the other -/

/-- An action goes through for lines one after the other, from a state to another one. -/
inductive GoesThrough (f : String → ExceptT Fault (StateM σ) α) :
    List String → σ → List α → σ → Prop
  | nil {s : σ} : GoesThrough f [] s [] s
  | cons {line : String} {lines : List String} {s s₁ s₂ : σ} {v : α} {values : List α} :
      (f line).run.run s = (.ok v, s₁) → GoesThrough f lines s₁ values s₂ →
      GoesThrough f (line :: lines) s (v :: values) s₂

/-- An action fails at the last one of the lines that it is called with, and goes through for those
before. -/
def FailsAt (f : String → ExceptT Fault (StateM σ) α) (lines : List String) (s : σ)
    (calls : List String) (fault : Fault) (s' : σ) : Prop :=
  ∃ before line after values s₁, lines = before ++ line :: after ∧ calls = before ++ [line] ∧
    GoesThrough f before s values s₁ ∧ (f line).run.run s₁ = (.error fault, s')

/-- An action may fail at the first line. -/
lemma failsAt_head (h : (f line).run.run s = (.error fault, s₁)) (lines : List String) :
    FailsAt f (line :: lines) s [line] fault s₁ :=
  ⟨[], line, lines, [], s, rfl, rfl, .nil, h⟩

/-- An action that goes through for the first line may fail at a later one. -/
lemma FailsAt.cons (hline : (f line).run.run s = (.ok v, s₁))
    (h : FailsAt f lines s₁ calls fault s₂) :
    FailsAt f (line :: lines) s (line :: calls) fault s₂ := by
  obtain ⟨before, last, after, values, s', rfl, rfl, hbefore, hlast⟩ := h
  exact ⟨line :: before, last, after, v :: values, s', rfl, rfl, .cons hline hbefore, hlast⟩

/-- **An action goes through for all lines or fails at one of them.** -/
theorem goesThrough_or_failsAt (f : String → ExceptT Fault (StateM σ) α) (lines : List String)
    (s : σ) : (∃ values s', GoesThrough f lines s values s') ∨
      ∃ calls fault s', FailsAt f lines s calls fault s' := by
  induction lines generalizing s with
  | nil => exact .inl ⟨[], s, .nil⟩
  | cons line lines ih =>
    obtain ⟨result, s₁, hline⟩ : ∃ result s₁, (f line).run.run s = (result, s₁) := ⟨_, _, rfl⟩
    cases result with
    | error fault => exact .inr ⟨[line], fault, s₁, failsAt_head hline lines⟩
    | ok v =>
      obtain ⟨values, s', hrest⟩ | ⟨calls, fault, s', hrest⟩ := ih s₁
      · exact .inl ⟨v :: values, s', .cons hline hrest⟩
      · exact .inr ⟨line :: calls, fault, s', hrest.cons hline⟩

/-- A line for which the action goes through is followed by the others. -/
lemma run_mapM_cons_of_ok (h : (f line).run.run s = (.ok v, s₁)) :
    ((line :: lines).mapM f).run.run s =
      (((lines.mapM f).run.run s₁).1.map (v :: ·), ((lines.mapM f).run.run s₁).2) := by
  rw [List.mapM_cons, ExceptT.run_bind, StateT.run_bind, h]
  show (((lines.mapM f >>= fun vs => pure (v :: vs)).run).run s₁ : Id _) = _
  rw [ExceptT.run_bind, StateT.run_bind]
  obtain ⟨result, s₂, hrest⟩ : ∃ result s₂, (lines.mapM f).run.run s₁ = (result, s₂) :=
    ⟨_, _, rfl⟩
  rw [hrest]
  cases result <;> rfl

/-- A line for which the action fails is followed by no other. -/
lemma run_mapM_cons_of_error (h : (f line).run.run s = (.error fault, s₁)) :
    ((line :: lines).mapM f).run.run s = (.error fault, s₁) := by
  rw [List.mapM_cons, ExceptT.run_bind, StateT.run_bind, h]
  rfl

/-- Where the action goes through for all lines, its results are collected. -/
lemma GoesThrough.run_mapM (h : GoesThrough f lines s values s₂) :
    (lines.mapM f).run.run s = (.ok values, s₂) := by
  induction h with
  | nil => rfl
  | cons hline _ ih =>
    rw [run_mapM_cons_of_ok hline, ih]
    rfl

/-- Where the action fails at a line, its failure is that of all lines. -/
lemma FailsAt.run_mapM (h : FailsAt f lines s calls fault s₂) :
    (lines.mapM f).run.run s = (.error fault, s₂) := by
  obtain ⟨before, line, after, values, s₁, rfl, -, hbefore, hline⟩ := h
  induction hbefore with
  | nil => exact run_mapM_cons_of_error hline
  | cons hfirst _ ih =>
    rw [List.cons_append, run_mapM_cons_of_ok hfirst, ih hline]
    rfl

/-- An action that leaves the state alone is mapped like the plain function. -/
lemma run_mapM_of_plain {g : String → Except Fault α}
    (h : ∀ line s, (f line).run.run s = (g line, s)) (lines : List String) (s : σ) :
    (lines.mapM f).run.run s = (lines.mapM g, s) := by
  induction lines with
  | nil => rfl
  | cons line lines ih =>
    rw [List.mapM_cons (f := g)]
    cases hline : g line with
    | error fault => exact run_mapM_cons_of_error (by rw [h, hline])
    | ok v =>
      rw [run_mapM_cons_of_ok (by rw [h, hline]), ih]
      cases lines.mapM g <;> rfl

/-! ### Taking down the calls -/

/-- An action that takes down the lines that it is called with. -/
def recorded (f : String → ExceptT Fault (StateM σ) α) (line : String) :
    ExceptT Fault (StateM (σ × List String)) α :=
  ExceptT.mk fun (s, calls) =>
    (((f line).run.run s).1, (((f line).run.run s).2, calls ++ [line]))

/-- What is taken down of one call. -/
lemma run_recorded (f : String → ExceptT Fault (StateM σ) α) (line : String) (s : σ)
    (calls : List String) : (recorded f line).run.run (s, calls) =
      (((f line).run.run s).1, ((f line).run.run s).2, calls ++ [line]) := rfl

/-- All lines are taken down where the action goes through for all. -/
lemma GoesThrough.recorded (h : GoesThrough f lines s values s₂) (calls : List String) :
    GoesThrough (recorded f) lines (s, calls) values (s₂, calls ++ lines) := by
  induction h generalizing calls with
  | nil =>
    rw [List.append_nil]
    exact .nil
  | @cons line lines s s₁ s₂ v values hline _ ih =>
    have hrest := ih (calls ++ [line])
    rw [List.append_assoc, List.singleton_append] at hrest
    exact .cons (by rw [run_recorded, hline]) hrest

/-- Where the action fails, the lines up to that one are taken down. -/
lemma FailsAt.recorded {log : List String} (h : FailsAt f lines s calls fault s₂) :
    FailsAt (recorded f) lines (s, log) calls fault (s₂, log ++ calls) := by
  obtain ⟨before, line, after, values, s₁, hlines, rfl, hbefore, hline⟩ := h
  refine ⟨before, line, after, values, _, hlines, rfl, hbefore.recorded log, ?_⟩
  rw [run_recorded, hline, List.append_assoc]

/-! ### The rows of a text -/

/-- **How a text is mapped.** -/
structure MapsRows (entry : String → String → ExceptT Fault (StateM σ) α) (name text : String) :
    Prop where
  /-- The entries are what stands between line feeds, trimmed, as far as something is left. -/
  entries : Text.entries text = Text.rows text.toList
  /-- The action goes through for all of them, or fails at one. -/
  ends : ∀ s, (∃ values s', GoesThrough (entry name) (Text.rows text.toList) s values s') ∨
    ∃ calls fault s', FailsAt (entry name) (Text.rows text.toList) s calls fault s'
  /-- If it goes through, it is called with each of them in order, and all results are kept. -/
  collects : ∀ s values s', GoesThrough (entry name) (Text.rows text.toList) s values s' →
    (onLines entry name text).run.run s = (.ok values, s') ∧
      ∀ log, (onLines (fun name => recorded (entry name)) name text).run.run (s, log) =
        (.ok values, s', log ++ Text.rows text.toList)
  /-- If it fails, it is called no more, and its failure is the one of the text. -/
  stops : ∀ s calls fault s', FailsAt (entry name) (Text.rows text.toList) s calls fault s' →
    (onLines entry name text).run.run s = (.error fault, s') ∧
      ∀ log, (onLines (fun name => recorded (entry name)) name text).run.run (s, log) =
        (.error fault, s', log ++ calls)
  /-- An action that leaves its state alone is mapped as the plain function. -/
  plain : ∀ f : String → String → Except Fault α,
    (∀ name line s, (entry name line).run.run s = (f name line, s)) →
      ∀ s, (onLines entry name text).run.run s = (onLines f name text, s)
  /-- The text lays out its entries and nothing else. -/
  laysOut : ∀ xs, Text.LaysOut xs text.toList ↔ Text.rows text.toList = xs
  /-- A text that lays out some entries is mapped like the list of them. -/
  unlays : ∀ xs, Text.LaysOut xs text.toList → onLines entry name text = xs.mapM (entry name)

/-- **A text is mapped row by row, up to the first failure**, however its rows are laid out. -/
theorem mapsRows (entry : String → String → ExceptT Fault (StateM σ) α) (name text : String) :
    MapsRows entry name text where
  entries := Text.entries_eq_rows text
  ends s := goesThrough_or_failsAt (entry name) _ s
  collects s values s' h := by
    rw [onLines, onLines, Text.entries_eq_rows]
    exact ⟨h.run_mapM, fun log => (h.recorded log).run_mapM⟩
  stops s calls fault s' h := by
    rw [onLines, onLines, Text.entries_eq_rows]
    exact ⟨h.run_mapM, fun log => h.recorded.run_mapM⟩
  plain f hf s := run_mapM_of_plain (hf name) (Text.entries text) s
  laysOut xs := Text.laysOut_iff
  unlays xs h := by rw [onLines, Text.entries_eq_rows, Text.laysOut_iff.mp h]

end Mapping

end KeyIntake
