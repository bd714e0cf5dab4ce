import KeyIntake.Log
import KeyIntake.Text.Blank
/-!
# Log filters

A filter is a list of directives, each giving a level to the targets that begin with a given text.
Of the directives that apply to a record the one with the longest text decides. A filter without
directives lets errors through and nothing else.

## Main definitions

* `Directive.ofText?` — the notation of a directive: a level, a target, or `target=level`.
* `LogFilter.strict?`, `LogFilter.lenient` — the notation of a filter.
* `LogFilter.ignored` — what the second of these leaves out.
* `LogFilter.passes` — the filter lets a record through.
-/

set_option autoImplicit false

namespace KeyIntake

/-- A directive: the level up to which records of some targets pass, if any do. -/
structure Directive where
  target : String := ""
  level : Option Level
  deriving DecidableEq, Repr

namespace Directive

/-- The levels by name and by number; the first one lets nothing through. -/
def levels : List (List String × Option Level) :=
  [(["off", "0"], none), (["error", "1"], some .error), (["warn", "2"], some .warn),
    (["info", "3"], some .info), (["debug", "4"], some .debug), (["trace", "5"], some .trace)]

/-- The level that a text names, whatever the case of its letters. -/
def level? (s : String) : Option (Option Level) :=
  (levels.find? fun l => l.1.contains s.toLower).map Prod.snd

/-- The characters of a target. -/
def isTargetChar (c : Char) : Bool := c.isAlphanum || c = '_' || c = ':' || c = '-'

/-- The directive that a text denotes. -/
def ofText? (s : String) : Option Directive :=
  match level? s with
  | some level => some { level }
  | none =>
    let (target, rest) := s.toList.span isTargetChar
    if target.isEmpty then none
    else
      match rest with
      | [] => some ⟨String.ofList target, some .trace⟩
      | '=' :: [] => some ⟨String.ofList target, some .trace⟩
      | '=' :: level => (level? (String.ofList level)).map (⟨String.ofList target, ·⟩)
      | _ => none

/-- The directive applies to records of a target. -/
def appliesTo (d : Directive) (target : String) : Bool :=
  d.target.toList.isPrefixOf target.toList

end Directive

/-- A list of directives. -/
abbrev LogFilter := List Directive

namespace LogFilter

/-- What stands between the commas of a text, trimmed; empty pieces are left out. -/
def pieces (s : String) : List String :=
  ((s.splitOn ",").map Text.trimmed).filter fun p => !p.isEmpty

/-- A filter without directives is the one that lets errors through. -/
def orErrors (f : LogFilter) : LogFilter := if f.isEmpty then [{ level := some .error }] else f

/-- The filter that a text denotes, if each of its pieces is a directive. -/
def strict? (s : String) : Option LogFilter := ((pieces s).mapM Directive.ofText?).map orErrors

/-- The filter of those pieces of a text that are directives. -/
def lenient (s : String) : LogFilter := orErrors ((pieces s).filterMap Directive.ofText?)

/-- Those pieces of a text that are no directives. -/
def ignored (s : String) : List String :=
  (pieces s).filter fun p => (Directive.ofText? p).isNone

/-- The more specific one of two directives; of equally specific ones the later one. -/
def choose (best : Option Directive) (d : Directive) : Option Directive :=
  match best with
  | some b => if d.target.length < b.target.length then some b else some d
  | none => some d

/-- The directive that decides about records of a target. -/
def deciding? (f : LogFilter) (target : String) : Option Directive :=
  (f.filter fun d => d.appliesTo target).foldl choose none

/-- The filter lets a record through. -/
def passes (f : LogFilter) (r : LogRecord) : Bool :=
  match (f.deciding? r.target).bind Directive.level with
  | some level => r.level.verbosity ≤ level.verbosity
  | none => false

end LogFilter

end KeyIntake
