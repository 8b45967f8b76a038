import Galley.Text.Trim
import Galley.Toolchain.Driver

/-!
# Version probe

Before a compilation the TeX program is asked for its version. An answer that cannot be had is
worth a warning and nothing more.
-/

namespace Galley

/-- Why a version is not known. -/
inductive ProbeError where
  /-- The program could not be started, or it failed. -/
  | unknown (reason : String)
  | crash (e : Crash)
  deriving DecidableEq, Repr

/-- The text of a probe error. -/
def ProbeError.message : ProbeError → String
  | .unknown reason => "Error probing for latex version: " ++ reason
  | .crash e => e.message

/-- Asks a program for its version. -/
def Toolchain.probeVersion (programs : Programs) (program : Path) :
    ExceptT ProbeError (Work Note Tree) String := do
  match ← (Toolchain.runProgram programs ⟨[toString program, "--version"], none, none⟩).run with
  | .ok result =>
    if result.status ≠ 0 then
      throw (.unknown (String.ofList (Text.trim result.errors.toList)))
    else return result.output
  | .error (.launch e) => throw (.unknown e.message)
  | .error (.crash e) => throw (.crash e)

end Galley
