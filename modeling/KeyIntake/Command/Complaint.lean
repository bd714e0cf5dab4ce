import KeyIntake.Settings.Layers
/-!
# Complaints

A run that fails says why: what it could not do, and below it the causes, from the nearest to the
deepest. Several causes are numbered, a single one is not.

## Main definitions

* `Complaint` — what failed, and its causes.
* `Complaint.text` — the complaint as it is printed.
* `Complaint.ofLoadFault` — the complaint about settings that could not be loaded.
-/

set_option autoImplicit false

namespace KeyIntake

/-- What failed, and its causes, the nearest one first. -/
structure Complaint where
  message : String
  causes : List String := []
  deriving DecidableEq, Repr

namespace Complaint

/-- A text with an opening before its first line and a margin before every other one. -/
def hung (opening margin text : String) : String :=
  opening ++ ("\n" ++ margin).intercalate (text.splitOn "\n")

/-- The opening of a numbered cause: its number to the right in five places. -/
def number (n : Nat) : String :=
  let digits := Text.decimal n
  String.ofList (List.replicate (5 - digits.length) ' ') ++ digits ++ ": "

/-- The lines of the causes. -/
def causeLines : List String → List String
  | [] => []
  | [cause] => ["", "Caused by:", hung "    " "    " cause]
  | causes => "" :: "Caused by:" :: causes.zipIdx.map fun c => hung (number c.2) "       " c.1

/-- The complaint as it is printed. -/
def text (c : Complaint) : String :=
  "\n".intercalate (("Error: " ++ c.message) :: causeLines c.causes) ++ "\n"

/-- The causes of a fault of loading: settings that could not be read have their reason as a cause
of its own. -/
def causesOf : Settings.LoadFault → List String
  | .defect d => [(Settings.LoadFault.defect d).message]
  | fault => ["Failed to load config: " ++ fault.message, fault.message]

/-- The complaint about settings that could not be loaded from a directory. -/
def ofLoadFault (directory : String) (fault : Settings.LoadFault) : Complaint where
  message := "Failed to load config from " ++ directory
  causes := causesOf fault

end Complaint

end KeyIntake
