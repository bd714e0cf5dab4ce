/-!
# Settings files

Settings files are looked for from the working directory upwards: the first directory in which the
path leads to a file counts.

## Main definitions

* `FileTree` — files by path.
* `FileTree.find?` — look for a file from a directory upwards.
-/

set_option autoImplicit false

namespace KeyIntake

/-- The files below a root directory, by the names that lead to them, and the directory in which the
program works. The root may be that of the whole file system. -/
structure FileTree where
  files : List (List String × String) := []
  workingDirectory : List String := []
  whole : Bool := false
  deriving DecidableEq, Repr

namespace FileTree

/-- What stands between the slashes of a path. -/
def segments : List Char → List (List Char)
  | [] => [[]]
  | c :: cs =>
    if c = '/' then [] :: segments cs
    else match segments cs with
      | [] => [[c]]
      | p :: ps => (c :: p) :: ps

/-- The names in a path; empty ones and single points lead nowhere and are left out. -/
def names (path : String) : List String :=
  ((segments path.toList).map String.ofList).filter fun s => s != "" && s != "."

/-- The files whose paths are given as texts. -/
def ofTexts (files : List (String × String)) (workingDirectory : String) : FileTree where
  files := files.map fun f => (names f.1, f.2)
  workingDirectory := names workingDirectory

/-- There is a directory. The working directory and its parents are there in any case. -/
def isDirectory (t : FileTree) (directory : List String) : Bool :=
  directory.isPrefixOf t.workingDirectory ||
    t.files.any fun f => directory.isPrefixOf f.1 && directory.length < f.1.length

/-- Follow names from a directory; two points lead to the parent of a directory that is there. -/
def follow (t : FileTree) (directory : List String) : List String → Option (List String)
  | [] => some directory
  | ".." :: rest =>
    if t.isDirectory directory then follow t directory.dropLast rest else none
  | name :: rest => follow t (directory ++ [name]) rest

/-- The content of the file that a path leads to from a directory. -/
def read? (t : FileTree) (directory : List String) (path : List String) : Option String :=
  (t.follow directory path).bind fun names => List.lookup names t.files

/-- Look for a file in a directory and in those above it, up to a number of steps. The number of
steps that were needed is returned with the content. -/
def findFrom? (t : FileTree) (path : List String) (steps : Nat) (directory : List String) :
    Nat → Option (Nat × String)
  | 0 => (t.read? directory path).map (steps, ·)
  | bound + 1 =>
    match t.read? directory path with
    | some content => some (steps, content)
    | none => findFrom? t path (steps + 1) directory.dropLast bound

/-- Look for a file from the working directory upwards, to the root directory. The path under which
it is found, as seen from the working directory, is returned with its content. A path that starts at
the root of the file system leads to a file only if the tree is the whole file system. -/
def find? (t : FileTree) (path : String) : Option (String × String) :=
  match path.toList with
  | '/' :: _ => if t.whole then (t.read? [] (names path)).map (path, ·) else none
  | _ =>
    let wanted := names path
    (t.findFrom? wanted 0 t.workingDirectory t.workingDirectory.length).map fun p =>
      ("/".intercalate (List.replicate p.1 ".." ++ wanted), p.2)

end FileTree

end KeyIntake
