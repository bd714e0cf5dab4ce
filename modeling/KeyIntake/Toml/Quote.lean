import KeyIntake.Text.Digits
/-!
# Quoted texts in TOML

Basic texts stand between double quotes and know escapes; literal texts stand between single quotes
and know none. Between tripled quotes both may span lines. Every reader returns what follows the
text.

## Main definitions

* `Toml.isPlain` — the characters that may stand in a text or a comment as themselves.
* `Toml.unescape?` — the character that an escape stands for.
* `Toml.basicBody?`, `Toml.literalBody?` — texts on one line.
* `Toml.longBasicBody?`, `Toml.longLiteralBody?` — texts over several lines.
-/

set_option autoImplicit false

namespace KeyIntake

namespace Toml

/-- Horizontal space. -/
def isSpace (c : Char) : Bool := c = ' ' || c = '\t'

/-- The characters that may stand in a text or a comment: the tab and whatever is not a control
character. -/
def isPlain (c : Char) : Bool := c = '\t' || (0x20 ≤ c.toNat && c.toNat ≠ 0x7F)

/-- The character with a number, unless the number is none of a character. -/
def charOf? (n : Nat) : Option Char := if h : n.isValidChar then some (Char.ofNatAux n h) else none

/-- The character that an escape stands for, the backslash being read already. -/
def unescape? : List Char → Option (Char × List Char)
  | 'b' :: rest => some ('\x08', rest)
  | 't' :: rest => some ('\t', rest)
  | 'n' :: rest => some ('\n', rest)
  | 'f' :: rest => some ('\x0c', rest)
  | 'r' :: rest => some ('\r', rest)
  | '"' :: rest => some ('"', rest)
  | '\\' :: rest => some ('\\', rest)
  | 'u' :: a :: b :: c :: d :: rest =>
    ((Text.numeralIn? 16 0 [a, b, c, d]).bind charOf?).map (·, rest)
  | 'U' :: a :: b :: c :: d :: e :: f :: g :: h :: rest =>
    ((Text.numeralIn? 16 0 [a, b, c, d, e, f, g, h]).bind charOf?).map (·, rest)
  | _ => none

/-- The rest of a basic text behind its opening quote, on top of the characters read so far, latest
first. -/
def basicBody? (read : List Char) : Nat → List Char → Option (String × List Char)
  | 0, _ => none
  | _ + 1, [] => none
  | _ + 1, '"' :: rest => some (String.ofList read.reverse, rest)
  | bound + 1, '\\' :: rest =>
    match unescape? rest with
    | some (c, rest') => basicBody? (c :: read) bound rest'
    | none => none
  | bound + 1, c :: rest => if isPlain c then basicBody? (c :: read) bound rest else none

/-- The rest of a literal text behind its opening quote. -/
def literalBody? (read : List Char) : List Char → Option (String × List Char)
  | [] => none
  | '\'' :: rest => some (String.ofList read.reverse, rest)
  | c :: rest => if isPlain c then literalBody? (c :: read) rest else none

/-- One line break at the front. -/
def newline? : List Char → Option (List Char)
  | '\n' :: rest => some rest
  | '\r' :: '\n' :: rest => some rest
  | _ => none

/-- A text without the line breaks and the horizontal space at its front. -/
def skipBlank : List Char → List Char
  | '\r' :: '\n' :: rest => skipBlank rest
  | c :: rest => if c = '\n' ∨ isSpace c then skipBlank rest else c :: rest
  | [] => []

/-- What follows a backslash at the end of a line: horizontal space, a line break, and all further
space and line breaks, which are dropped together. -/
def continuation? (cs : List Char) : Option (List Char) :=
  (newline? (cs.dropWhile isSpace)).map skipBlank

/-- The end of a text between tripled quotes: up to two of the quotes belong to the text. -/
def longEnd? (quote : Char) : List Char → Option (Nat × List Char)
  | a :: b :: c :: d :: e :: rest =>
    if a = quote ∧ b = quote ∧ c = quote then
      if d = quote then if e = quote then some (2, rest) else some (1, e :: rest)
      else some (0, d :: e :: rest)
    else none
  | [a, b, c, d] =>
    if a = quote ∧ b = quote ∧ c = quote then
      if d = quote then some (1, []) else some (0, [d])
    else none
  | [a, b, c] => if a = quote ∧ b = quote ∧ c = quote then some (0, []) else none
  | _ => none

/-- The rest of a basic text that may span lines, behind its opening quotes. Line breaks of both
forms are read as line feeds. -/
def longBasicBody? (read : List Char) : Nat → List Char → Option (String × List Char)
  | 0, _ => none
  | bound + 1, cs =>
    match longEnd? '"' cs with
    | some (kept, rest) => some (String.ofList (List.replicate kept '"' ++ read).reverse, rest)
    | none =>
      match newline? cs with
      | some rest => longBasicBody? ('\n' :: read) bound rest
      | none =>
        match cs with
        | [] => none
        | '\\' :: rest =>
          match unescape? rest with
          | some (c, rest') => longBasicBody? (c :: read) bound rest'
          | none =>
            match continuation? rest with
            | some rest' => longBasicBody? read bound rest'
            | none => none
        | c :: rest => if isPlain c then longBasicBody? (c :: read) bound rest else none

/-- The rest of a literal text that may span lines, behind its opening quotes. -/
def longLiteralBody? (read : List Char) : Nat → List Char → Option (String × List Char)
  | 0, _ => none
  | bound + 1, cs =>
    match longEnd? '\'' cs with
    | some (kept, rest) => some (String.ofList (List.replicate kept '\'' ++ read).reverse, rest)
    | none =>
      match newline? cs with
      | some rest => longLiteralBody? ('\n' :: read) bound rest
      | none =>
        match cs with
        | [] => none
        | c :: rest => if isPlain c then longLiteralBody? (c :: read) bound rest else none

/-- A text of any of the four sorts at the front. A line break right behind tripled quotes does not
belong to the text. -/
def quoted? : List Char → Option (String × List Char)
  | '"' :: '"' :: '"' :: rest => longBasicBody? [] (rest.length + 1) ((newline? rest).getD rest)
  | '\'' :: '\'' :: '\'' :: rest =>
    longLiteralBody? [] (rest.length + 1) ((newline? rest).getD rest)
  | '"' :: rest => basicBody? [] (rest.length + 1) rest
  | '\'' :: rest => literalBody? [] rest
  | _ => none

end Toml

end KeyIntake
