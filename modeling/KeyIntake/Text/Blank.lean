/-!
# Blank characters and trimming

The characters that count as white space are those with the Unicode property `White_Space`.
Texts are handled as lists of characters, so that every operation here is a plain recursion.

## Main definitions

* `Text.isBlank` — membership in `White_Space`, as a table of ranges.
* `Text.trimBy`, `Text.trim` — drop the characters of a class from both ends of a text.
* `Text.trimmed` — the same on strings.
-/

set_option autoImplicit false

namespace KeyIntake

namespace Text

/-- The code points with the property `White_Space`, as closed ranges in increasing order. -/
def blankRanges : List (Nat × Nat) :=
  [(0x9, 0xD), (0x20, 0x20), (0x85, 0x85), (0xA0, 0xA0), (0x1680, 0x1680), (0x2000, 0x200A),
    (0x2028, 0x2029), (0x202F, 0x202F), (0x205F, 0x205F), (0x3000, 0x3000)]

/-- Membership of a number in one of a list of closed ranges. -/
def inRanges (ranges : List (Nat × Nat)) (n : Nat) : Bool :=
  ranges.any fun r => r.1 ≤ n && n ≤ r.2

/-- A character is blank when it has the property `White_Space`. -/
def isBlank (c : Char) : Bool := inRanges blankRanges c.toNat

/-- Drop the longest run of characters of a class from the end of a text. -/
def trimEndBy (p : Char → Bool) (cs : List Char) : List Char :=
  (cs.reverse.dropWhile p).reverse

/-- Drop the longest runs of characters of a class from both ends of a text. -/
def trimBy (p : Char → Bool) (cs : List Char) : List Char :=
  trimEndBy p (cs.dropWhile p)

/-- A text without its leading and trailing blanks. -/
def trim (cs : List Char) : List Char := trimBy isBlank cs

/-- A string without its leading and trailing blanks. -/
def trimmed (s : String) : String := String.ofList (trim s.toList)

end Text

end KeyIntake
