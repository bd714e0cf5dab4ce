import KeyIntake.Text.Digits
/-!
# Endpoints

The address of the vault is a URL. Of a URL the scheme, the host, the port and the path matter here.

## Main definitions

* `Endpoint` — a URL.
* `Endpoint.parse?` — the URL that a text denotes.
* `Endpoint.resolve` — the URL of a resource below the endpoint.
-/

set_option autoImplicit false

namespace KeyIntake

/-- A URL: scheme and host in lower case, the port unless it is the usual one, and the path with its
escapes. -/
structure Endpoint where
  scheme : String
  host : String
  port : Option Nat := none
  path : String := ""
  deriving DecidableEq, Repr

namespace Endpoint

/-! ### Characters -/

/-- Control characters and the space. -/
def isControlOrSpace (c : Char) : Bool := c.toNat ≤ 0x20

/-- Characters that are dropped wherever they stand. -/
def isDropped (c : Char) : Bool := c = '\t' || c = '\n' || c = '\r'

/-- Characters of a scheme behind its first letter. -/
def isSchemeChar (c : Char) : Bool := c.isAlphanum || c = '+' || c = '-' || c = '.'

/-- Characters that no host holds. -/
def isForbidden (c : Char) : Bool :=
  isControlOrSpace c || c = '#' || c = '/' || c = ':' || c = '<' || c = '>' || c = '?' || c = '@' ||
    c = '[' || c = '\\' || c = ']' || c = '^' || c = '|'

/-- Characters that no domain name holds. -/
def isForbiddenInDomain (c : Char) : Bool := isForbidden c || c = '%' || c.toNat = 0x7F

/-- Slashes of both directions. -/
def isSlash (c : Char) : Bool := c = '/' || c = '\\'

/-- Characters that end the part of a URL that names the host. -/
def endsAuthority (c : Char) : Bool := isSlash c || c = '?' || c = '#'

/-! ### Schemes -/

/-- The usual port of the schemes that name a host. -/
def usualPort? (scheme : String) : Option Nat :=
  [("http", 80), ("https", 443), ("ws", 80), ("wss", 443), ("ftp", 21)].lookup scheme

/-- The scheme at the front of a URL, in lower case, and what follows its colon. -/
def scheme? (cs : List Char) : Option (String × List Char) :=
  match cs with
  | [] => none
  | c :: _ =>
    if c.isAlpha then
      let (scheme, rest) := cs.span isSchemeChar
      match rest with
      | ':' :: rest' => some (String.ofList (scheme.map Char.toLower), rest')
      | _ => none
    else none

/-! ### Hosts -/

/-- A byte from two hexadecimal digits. -/
def escapedByte? (a b : Char) : Option Char :=
  match Text.hexValue? a, Text.hexValue? b with
  | some h, some l => some (Char.ofNat (16 * h + l))
  | _, _ => none

/-- A host without its escapes. -/
def unescape : List Char → List Char
  | '%' :: a :: b :: rest =>
    match escapedByte? a b with
    | some c => c :: unescape rest
    | none => '%' :: unescape (a :: b :: rest)
  | c :: rest => c :: unescape rest
  | [] => []

/-- A number in a host of numbers: decimal, octal behind `0`, or hexadecimal behind `0x`. -/
def hostNumber? (s : String) : Option Nat :=
  match s.toList with
  | '0' :: 'x' :: rest => Text.numeralIn? 16 0 rest
  | '0' :: 'X' :: rest => Text.numeralIn? 16 0 rest
  | '0' :: c :: rest => Text.numeralIn? 8 0 (c :: rest)
  | cs => Text.numeral? cs

/-- The parts of a host between points, one empty part at the end being left out. -/
def hostParts (host : String) : List String :=
  let parts := host.splitOn "."
  if 1 < parts.length ∧ parts.getLast? = some "" then parts.dropLast else parts

/-- The last part of a host makes it a host of numbers. -/
def endsInNumber (host : String) : Bool :=
  match (hostParts host).getLast? with
  | some part => (!part.isEmpty && part.toList.all Char.isDigit) || (hostNumber? part).isSome
  | none => false

/-- The value of a place in an address of four numbers, the last place being number zero. -/
def placeValue (place : Nat) : Nat := Nat.pow 256 place

/-- A host of numbers as four numbers. All numbers but the last one are below 256, and the last one
fills the places that are left. -/
def ipv4? (host : String) : Option String := do
  let numbers ← (hostParts host).mapM hostNumber?
  let last ← numbers.getLast?
  let front := numbers.dropLast
  if 3 < front.length ∨ front.any (255 < ·) ∨ placeValue (4 - front.length) ≤ last then none
  else
    let value := (front.zipIdx.map fun (n, i) => n * placeValue (3 - i)).foldl (· + ·) last
    some (".".intercalate ([3, 2, 1, 0].map fun place =>
      Text.decimal (value / placeValue place % 256)))

/-- A group of an address of version six. -/
def isGroup (s : String) : Bool :=
  s.length ≤ 4 && !s.isEmpty && (s.toList.all fun c => (Text.hexValue? c).isSome)

/-- The groups between colons; none if the text is empty. -/
def groups (s : String) : List String := if s.isEmpty then [] else s.splitOn ":"

/-- An address of version six between brackets: eight groups, or fewer with one gap. -/
def isIpv6 (s : String) : Bool :=
  match s.splitOn "::" with
  | [all] => (groups all).length = 8 && (groups all).all isGroup
  | [front, back] =>
    (groups front ++ groups back).length ≤ 7 && (groups front ++ groups back).all isGroup
  | _ => false

/-- The host that a text denotes in a URL with one of the usual schemes. -/
def host? (text : List Char) : Option String :=
  match text with
  | '[' :: rest =>
    match rest.reverse with
    | ']' :: inner =>
      let address := String.ofList (inner.reverse.map Char.toLower)
      if isIpv6 address then some ("[" ++ address ++ "]") else none
    | _ => none
  | _ =>
    let host := String.ofList ((unescape text).map Char.toLower)
    if host.isEmpty ∨ host.toList.any isForbiddenInDomain then none
    else if endsInNumber host then ipv4? host
    else some host

/-- The host that a text denotes in a URL with any other scheme. -/
def opaqueHost? (text : List Char) : Option String :=
  if text.any isForbidden then none else some (String.ofList text)

/-- Split host and port: at the first colon, or at the first one behind a closing bracket. -/
def splitPort (cs : List Char) : List Char × List Char :=
  match cs with
  | '[' :: _ =>
    let (inner, rest) := cs.span fun c => c != ']'
    (inner ++ rest.take 1, rest.drop 1)
  | _ => cs.span fun c => c != ':'

/-- The port that a text denotes behind its host; nothing, or a colon alone, denotes none. -/
def port? (cs : List Char) : Option (Option Nat) :=
  match cs with
  | [] => some none
  | [':'] => some none
  | ':' :: digits =>
    match Text.numeral? digits with
    | some n => if n < Nat.pow 2 16 then some (some n) else none
    | none => none
  | _ => none

/-- What follows the last `@` of the part of a URL that names the host. -/
def dropUser (cs : List Char) : List Char := (cs.reverse.takeWhile fun c => c != '@').reverse

/-! ### Paths -/

/-- The characters of a path that are escaped, besides those outside ASCII. -/
def isEscapedInPath (c : Char) : Bool :=
  isControlOrSpace c || 0x7F ≤ c.toNat || c = '"' || c = '#' || c = '<' || c = '>' || c = '?' ||
    c = '`' || c = '{' || c = '}'

/-- The characters of a piece of a path that are escaped, besides those outside ASCII. -/
def isEscapedInPiece (c : Char) : Bool := isEscapedInPath c || c = '\\' || c = '%'

/-- A byte as an escape. -/
def escapeByte (b : UInt8) : List Char :=
  '%' :: [b.toNat / 16, b.toNat % 16].map fun n => (Nat.digitChar n).toUpper

/-- A text with the characters of a class escaped, byte by byte. -/
def escape (escaped : Char → Bool) (s : List Char) : List Char :=
  s.flatMap fun c => if escaped c then (String.utf8EncodeChar c).flatMap escapeByte else [c]

/-- The pieces of a path between slashes. -/
def pieces (slash : Char → Bool) : List Char → List (List Char)
  | [] => [[]]
  | c :: cs =>
    if slash c then [] :: pieces slash cs
    else match pieces slash cs with
      | [] => [[c]]
      | p :: ps => (c :: p) :: ps

/-- Follow the pieces of a path: one point leads nowhere and two lead back. -/
def follow (done : List (List Char)) : List (List Char) → List (List Char)
  | [] => done
  | [p] =>
    if p = ['.', '.'] then done.dropLast ++ [[]]
    else if p = ['.'] then done ++ [[]]
    else done ++ [p]
  | p :: q :: rest =>
    if p = ['.', '.'] then follow done.dropLast (q :: rest)
    else if p = ['.'] then follow done (q :: rest)
    else follow (done ++ [p]) (q :: rest)

/-- The path of a URL from what follows its host, without query and fragment. -/
def pathOf (cs : List Char) : String :=
  let raw := cs.takeWhile fun c => c != '?' && c != '#'
  let inner := match raw with
    | c :: rest => if isSlash c then rest else raw
    | [] => []
  let followed := follow [] (pieces isSlash inner)
  String.ofList ('/' :: (List.intercalate ['/'] (followed.map (escape isEscapedInPath))))

/-! ### URLs -/

/-- The URL that a text denotes. -/
def parse? (text : String) : Option Endpoint := do
  let trimmed := (text.toList.dropWhile isControlOrSpace).reverse.dropWhile isControlOrSpace
  let (scheme, rest) ← scheme? (trimmed.reverse.filter fun c => !isDropped c)
  match usualPort? scheme with
  | some usual => do
    let (authority, rest) := (rest.dropWhile isSlash).span fun c => !endsAuthority c
    let (hostText, portText) := splitPort (dropUser authority)
    let host ← host? hostText
    let port ← port? portText
    some { scheme, host, port := port.filter (· ≠ usual), path := pathOf rest }
  | none =>
    match scheme, rest with
    | "file", _ => some { scheme, host := "", path := pathOf (rest.dropWhile isSlash) }
    | _, '/' :: '/' :: rest => do
      let (authority, rest) := rest.span fun c => !endsAuthority c
      let (hostText, portText) := splitPort (dropUser authority)
      let host ← opaqueHost? hostText
      let port ← port? portText
      some { scheme, host, port, path := pathOf rest }
    | _, _ => some { scheme, host := "", path := String.ofList rest }

/-- Add a piece to a path: pieces of one or two points are left out. -/
def addPiece (path : String) (piece : List Char) : String :=
  if piece = ['.'] ∨ piece = ['.', '.'] then path
  else
    (if 1 < path.length then path ++ "/" else path) ++ String.ofList (escape isEscapedInPiece piece)

/-- The path of a resource below the endpoint, whose own path stands in front. -/
def resourcePath (e : Endpoint) (resource : String) : String :=
  let above := if e.path.isEmpty then "/" else e.path
  "/v1" ++ (pieces (· = '/') resource.toList).foldl addPiece above

/-- The URL of a resource below the endpoint. -/
def resolve (e : Endpoint) (resource : String) : String :=
  e.scheme ++ "://" ++ e.host ++ ((e.port.map fun n => ":" ++ Text.decimal n).getD "") ++
    e.resourcePath resource

end Endpoint

end KeyIntake
