import KeyIntake.Command
/-!
# The program

The program reads its environment variables and the settings files that the command may ask for,
runs the command, prints the lines of its log and its complaint, and exits with its status. It has
no network, so the vault is out of its reach.

## Main definitions

* `Host.ofVariables`, `Host.candidates` — what the command finds, and which files it may ask for.
* `main` — the program.
-/

set_option autoImplicit false

namespace KeyIntake

namespace Host

/-- The variables that a text lists: each name with its value, and a null character behind each. -/
def ofVariables (text : String) : Environment :=
  .ofPairs ((text.splitOn "\x00").filterMap fun entry =>
    let (name, rest) := entry.toList.span fun c => c != '='
    match rest with
    | _ :: value => some (String.ofList name, String.ofList value)
    | [] => none)

/-- The directories above a directory and the directory itself, by the names that lead to them. -/
def upwards : List String → List (List String)
  | [] => [[]]
  | name :: rest => [] :: (upwards rest).map (name :: ·)

/-- The names that lead from a directory along other names, two points leading back. -/
def along (directory names : List String) : List String :=
  names.foldl (fun d name => if name = ".." then d.dropLast else d ++ [name]) directory

/-- The files that the command may ask for, by the names that lead to them from the root. -/
def candidates (e : Environment) (workingDirectory : List String) : List (List String) :=
  ["default", Settings.environmentName e].flatMap fun name =>
    let path := Settings.directory e ++ "/" ++ name ++ ".toml"
    let starts := if path.toList.head? = some '/' then [[]] else upwards workingDirectory
    starts.map fun start => along start (FileTree.names path)

/-- The content of a file, if it can be read. -/
def read? (names : List String) : IO (Option (List String × String)) := do
  try
    let content ← IO.FS.readFile ("/" ++ "/".intercalate names)
    return some (names, content)
  catch _ =>
    return none

/-- What the command finds here. -/
def here : IO Host := do
  let environment := ofVariables (← IO.FS.readFile "/proc/self/environ")
  let workingDirectory := FileTree.names (← IO.currentDir).toString
  let files ← (candidates environment workingDirectory).filterMapM read?
  return { environment, files := { files, workingDirectory, whole := true } }

end Host

end KeyIntake

/-- The program. -/
def main : IO UInt32 := do
  let seen := KeyIntake.Command.transcript (← KeyIntake.Host.here) .unreachable
  for line in seen.lines do
    IO.println line.text
  IO.eprint seen.printed
  return seen.status.toUInt32
