import KeyIntake.Text.Blank
/-!
# Lines of a text

A line feed ends a line; a carriage return directly before it belongs to the line's end and not to
the line. A text that ends with a line feed has no further, empty line.

## Main definitions

* `Text.pieces` — what stands between the line feeds.
* `Text.lines` — the lines.
* `Text.entries` — the lines that hold something, trimmed.
-/

set_option autoImplicit false

namespace KeyIntake

namespace Text

/-- What stands between the line feeds of a text: one piece more than there are line feeds. -/
def pieces : List Char → List (List Char)
  | [] => [[]]
  | c :: cs =>
    if c = '\n' then [] :: pieces cs
    else match pieces cs with
      | [] => [[c]]
      | p :: ps => (c :: p) :: ps

/-- A piece without one trailing carriage return. -/
def dropReturn (p : List Char) : List Char :=
  if p.getLast? = some '\r' then p.dropLast else p

/-- Turn the pieces into lines: each piece but the last was ended by a line feed, which takes a
carriage return before it along; the last piece is a line only if it holds something. -/
def endLines : List (List Char) → List (List Char)
  | [] => []
  | [p] => if p.isEmpty then [] else [p]
  | p :: q :: ps => dropReturn p :: endLines (q :: ps)

/-- The lines of a text. -/
def lines (cs : List Char) : List (List Char) := endLines (pieces cs)

/-- The lines of a text that are not blank, each without surrounding blanks. -/
def entries (s : String) : List String :=
  (((lines s.toList).map trim).filter fun line => !line.isEmpty).map String.ofList

end Text

end KeyIntake
