import Galley.Crash
import Galley.Elapsed
import Galley.Program.Start
import Galley.Text.Lower

/-!
# Outcomes

How a compilation ends, the phases that it goes through on the way, and what is done with the PDF
afterwards.
-/

namespace Galley

/-- What is done with the PDF after a successful compilation. -/
inductive Completion where
  | view
  | publish
  | none
  deriving DecidableEq, Repr

namespace Completion

/-- The name of a completion. -/
def text : Completion → String
  | .view => "view"
  | .publish => "publish"
  | .none => "none"

/-- Reads a completion, in any case; what is not known means that nothing is done. -/
def ofText (s : String) : Completion :=
  if Text.lower s = "view" then .view
  else if Text.lower s = "publish" then .publish
  else .none

end Completion

/-- The phases of a compilation. -/
inductive Phase where
  | created
  | validating
  | weaving
  | typesetting
  | reporting
  | finished
  deriving DecidableEq, Repr

/-- The name of a phase. -/
def Phase.text : Phase → String
  | .created => "created"
  | .validating => "validating"
  | .weaving => "weaving"
  | .typesetting => "typesetting"
  | .reporting => "reporting"
  | .finished => "finished"

/-- The ways a compilation ends. -/
inductive OutcomeKind where
  | success
  | invalidInput
  | toolResolutionError
  | weaveError
  | processError
  | diagnosticsAvailable
  | launchError
  | unexpectedError
  deriving DecidableEq, Repr

/-- The name of a way to end. -/
def OutcomeKind.text : OutcomeKind → String
  | .success => "success"
  | .invalidInput => "invalid_input"
  | .toolResolutionError => "tool_resolution_error"
  | .weaveError => "weave_error"
  | .processError => "process_error"
  | .diagnosticsAvailable => "diagnostics_available"
  | .launchError => "launch_error"
  | .unexpectedError => "unexpected_error"

/-- The result of a compilation. -/
structure Outcome where
  kind : OutcomeKind
  /-- Why it failed; nothing after a success. -/
  message : String := ""
  /-- The diagnostics as they were shown, if there are any. -/
  diagnostics : List String := []
  /-- The PDF of a success. -/
  pdf : Option Path := none
  /-- The status of the toolchain, if it came to an end. -/
  status : Option Int := none
  output : String := ""
  errors : String := ""
  deriving DecidableEq, Repr

namespace Outcome

/-- Whether the compilation succeeded. -/
def success (o : Outcome) : Bool := o.kind == .success

/-- How many diagnostics are logged if not all are asked for. -/
def loggedDiagnostics : Nat := 5

/-- The messages about the diagnostics. -/
def diagnosticMessages (o : Outcome) (verbose : Bool) : List Message :=
  let limit := if verbose then o.diagnostics.length else loggedDiagnostics
  let lines := (o.diagnostics.take limit).mapIdx fun i line =>
    Message.render .error ("  Diagnostic " ++ toString (i + 1) ++ ": " ++ line)
  if limit < o.diagnostics.length then
    lines ++ [Message.render .error
      ("  ... and " ++ toString (o.diagnostics.length - limit) ++ " more diagnostics")]
  else lines

/-- The messages about what the toolchain wrote. -/
def outputMessages (o : Outcome) : List Message :=
  (if o.output = "" then [] else [Message.outputSection "COMPILER STDOUT" o.output]) ++
    (if o.errors = "" then [] else [Message.outputSection "COMPILER STDERR" o.errors])

/-- The messages that log the result of a compilation. -/
def messages (o : Outcome) (target : Path) (elapsed : Elapsed) (verbose : Bool) : List Message :=
  let time := "(" ++ toString elapsed ++ ")"
  (if o.success then
    Message.render .success (target.name ++ ": compilation succeeded " ++ time) ::
      (match o.pdf with
      | some pdf => [Message.render .debug ("  PDF: " ++ toString pdf)]
      | none => [])
  else
    Message.render .error
        (target.name ++ ": compilation failed [" ++ o.kind.text ++ "] " ++ time) ::
      ((if o.message = "" then [] else [Message.render .error ("  " ++ o.message)]) ++
        o.diagnosticMessages verbose)) ++
  (if verbose || !o.success then o.outputMessages else [])

end Outcome

/-- The messages that log the start of a compilation. -/
def startMessages (target : Path) (completion : String) : List Message :=
  [Message.render .info ("Starting compilation: " ++ target.name),
    Message.render .debug ("  Source: " ++ toString target),
    Message.render .debug ("  On completion: " ++ completion)]

/-- The PDF of a document. -/
def pdfPath (target : Path) : Path := target.sibling ".pdf"

/-- The text of the error that ends a compilation whose TeX program failed without diagnostics. -/
def processErrorMessage (program : Path) (status : Int) : String :=
  "Error running " ++ toString program ++ " (exit code " ++ toString status ++ ")"

end Galley
