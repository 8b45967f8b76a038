import Galley.Compile.Outcome
import Galley.Toolchain.Probe
import Galley.Toolchain.Program

/-!
# Stops

A compilation that does not come to its end is **stopped**: by its own checks, by a tool that
reports a failure, or by an error that a collaborator raises. A stop has a kind of outcome and a
message, and some stops have a kind of outcome to themselves.

Collaborators may raise any stop at all, the ones that the checks of a compilation raise included.
-/

namespace Galley

/-- Why a compilation stops before its end. -/
inductive Stop where
  | invalidInput (message : String)
  | toolResolution (message : String)
  | weave (reason : String)
  | process (program : Path) (status : Int)
  | launch (e : LaunchError)
  /-- The version of the TeX program cannot be had. -/
  | version (message : String)
  /-- Another error of compilations. -/
  | general (message : String)
  | crash (e : Crash)
  deriving DecidableEq, Repr

namespace Stop

/-- The kind of outcome that a stop leads to. -/
def kind : Stop → OutcomeKind
  | .invalidInput _ => .invalidInput
  | .toolResolution _ => .toolResolutionError
  | .weave _ => .weaveError
  | .process _ _ => .processError
  | .launch _ => .launchError
  | .version _ => .unexpectedError
  | .general _ => .unexpectedError
  | .crash _ => .unexpectedError

theorem kind_ne_success (stop : Stop) : stop.kind ≠ .success := by
  cases stop <;> simp [kind]

/-- The message of the outcome that a stop leads to. -/
def message : Stop → String
  | .invalidInput message => message
  | .toolResolution message => message
  | .weave reason => reason
  | .process program status => processErrorMessage program status
  | .launch e => "Unable to compile pdf: " ++ e.message
  | .version message => message
  | .general message => message
  | .crash e => "Unexpected error: " ++ e.message

@[simp]
theorem message_weave (reason : String) : (weave reason).message = reason := rfl

@[simp]
theorem message_launch (e : LaunchError) :
    (launch e).message = "Unable to compile pdf: " ++ e.message := rfl

@[simp]
theorem message_crash (e : Crash) : (crash e).message = "Unexpected error: " ++ e.message := rfl

/-- The outcome that a stop leads to, given what the toolchain left if it came to an end. -/
def outcome (stop : Stop) (result : Option ToolOutput) : Outcome :=
  { kind := stop.kind, message := stop.message, status := result.map (·.status),
    output := (result.map (·.output)).getD "", errors := (result.map (·.errors)).getD "" }

/-- The error of a driver as a stop. -/
def ofDriverError : DriverError → Stop
  | .launch e => .launch e
  | .crash e => .crash e

/-- The error of a probe as a stop. -/
def ofProbeError : ProbeError → Stop
  | .unknown reason => .version (ProbeError.unknown reason).message
  | .crash e => .crash e

end Stop

/-- The parts that collaborators have in a compilation and may fail in. -/
inductive Role where
  /-- Programs are looked up. -/
  | lookup
  | weaver
  | probe
  | driver
  deriving DecidableEq, Repr

end Galley
