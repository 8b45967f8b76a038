import Galley.Concordance.Reader
import Galley.Tree.Fault
import Galley.Host

/-!
# Unexpected errors

A **crash** is an error that no step of a compilation is prepared for. It never leaves a
compilation: the compilation reports it and ends.
-/

namespace Galley

/-- An error that no step is prepared for. -/
inductive Crash where
  /-- A file could not be used. -/
  | file (e : FileError)
  /-- The offset of a concordance has no number in it. -/
  | offsetMissing
  /-- A path has a NUL in it. -/
  | embeddedNul
  /-- A diagnostic has no file to show. -/
  | unknownSource
  /-- A number has too many digits to be written. -/
  | tooLongToWrite
  /-- There is no home directory. -/
  | homeless
  /-- Anything else. -/
  | other (message : String)
  deriving DecidableEq, Repr

/-- The text of a crash. -/
def Crash.message : Crash → String
  | .file e => e.message
  | .offsetMissing => ConcordanceError.message .offsetMissing
  | .embeddedNul => "embedded null byte"
  | .unknownSource => "'NoneType' object has no attribute 'relative_to'"
  | .tooLongToWrite => Text.tooLongToWriteMessage
  | .homeless => homelessMessage
  | .other message => message

end Galley
