import Galley.Path
import Galley.Text.Quoted

/-!
# Faults of a tree

Reading and changing a tree fails for one of a few reasons, each with a number of its own. A
`FileError` names the path as it was given.
-/

namespace Galley

/-- Why the system refuses an operation on a tree, or the start of a program in it. -/
inductive Fault where
  | notFound
  | notAProgram
  | denied
  | alreadyThere
  | notADirectory
  | isADirectory
  deriving DecidableEq, Repr

/-- The system's number of a fault. -/
def Fault.number : Fault → Nat
  | .notFound => 2
  | .notAProgram => 8
  | .denied => 13
  | .alreadyThere => 17
  | .notADirectory => 20
  | .isADirectory => 21

/-- The system's wording of a fault. -/
def Fault.text : Fault → String
  | .notFound => "No such file or directory"
  | .notAProgram => "Exec format error"
  | .denied => "Permission denied"
  | .alreadyThere => "File exists"
  | .notADirectory => "Not a directory"
  | .isADirectory => "Is a directory"

/-- The text of a fault, with what it occurred at as it is shown. -/
def Fault.messageAt (f : Fault) (shown : String) : String :=
  "[Errno " ++ toString f.number ++ "] " ++ f.text ++ ": " ++ shown

/-- A path as it is shown where it counts as a value of its own and not as a text. -/
def Path.valueText (p : Path) : String :=
  "PosixPath(" ++ String.ofList (Text.quoted (toString p).toList) ++ ")"

/-- A fault and the path that it occurred at, as it was given. -/
structure FileError where
  fault : Fault
  path : String
  deriving DecidableEq, Repr

/-- The text of a file error. -/
def FileError.message (e : FileError) : String :=
  e.fault.messageAt (String.ofList (Text.quoted e.path.toList))

end Galley
