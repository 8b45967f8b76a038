import Galley.Cleanup
import Galley.Compile.Stop
import Galley.Diagnostics
import Galley.Weaver

/-!
# Compilation

A compilation takes one document through its phases: it is validated, woven if it is literate,
typeset, and the result is reported. Whatever stops it on the way is reported too, and every way
ends in the last phase, where byproducts are cleaned up.

What a compilation works with are its **collaborators**: a weaver, drivers, a probe, a viewer and
a publisher may each do anything to the tree and may each fail. A failure becomes a part of the
outcome and never leaves the compilation.

The **events** of a compilation are its history: the notes of its work, the text it shows, the
phases it enters, its warnings, what its collaborators return and raise, and the PDF that it hands
to the viewer or the publisher.
-/

namespace Galley

open Text

/-- An event of a compilation. -/
inductive Event where
  | note (n : Note)
  | shown (line : ProgressLine)
  | entered (phase : Phase)
  | warned (message : String)
  /-- The weaver returned. -/
  | wove (result : WeaveResult)
  /-- The driver returned. -/
  | drove (result : ToolOutput)
  /-- The logs of a toolchain that failed were read. -/
  | diagnosed (diagnostics : Diagnostics)
  /-- The logs of a toolchain that failed give no diagnostics, for an error. -/
  | undiagnosed (e : Crash)
  /-- A collaborator raised an error. -/
  | raised (role : Role) (stop : Stop)
  /-- The viewer was called. -/
  | viewed (pdf : Path)
  /-- The publisher was called. -/
  | published (pdf : String)

namespace Event

/-- The note of an event. -/
def note? : Event → Option Note
  | .note n => some n
  | _ => none

/-- The start of a program that an event tells of. -/
def start? (e : Event) : Option Start := e.note?.bind Note.start?

/-- The logged message that an event tells of. -/
def message? (e : Event) : Option Message := e.note?.bind Note.message?

/-- The text that was shown. -/
def shown? : Event → Option ProgressLine
  | .shown line => some line
  | _ => none

/-- The phase that was entered. -/
def phase? : Event → Option Phase
  | .entered phase => some phase
  | _ => none

/-- The warning that was given. -/
def warning? : Event → Option String
  | .warned message => some message
  | _ => none

end Event

/-- The stream of a compilation once the events have happened. -/
def ProgressStream.follow {σ : Type} (s : ProgressStream σ) (events : List Event) :
    ProgressStream σ :=
  s.appendAll (events.filterMap Event.shown?)

/-- One attempt to compile a document. -/
structure Attempt where
  tree : Tree
  phase : Phase := .created
  cleanup : Cleanup := {}
  /-- Whether typesetting was reached, from where on the logs of a failure are worth keeping. -/
  typesetting : Bool := false
  /-- What the toolchain left, once it came to an end. -/
  result : Option ToolOutput := none

/-- What a compilation is asked for, and its collaborators. -/
structure Compilation where
  here : Path
  target : Path
  completion : Completion := .none
  settings : Settings := {}
  weaver : Path → Directives → ExceptT Stop (Work Note Tree) WeaveResult
  /-- Asks a TeX program for its version. -/
  probe : Path → ExceptT Stop (Work Note Tree) String
  /-- The driver that a compilation uses. -/
  driver : Tree → Except Stop (Driver Stop)
  viewer : Path → ExceptT Crash (Work Note Tree) Unit
  publisher : String → ExceptT Crash (Work Note Tree) Unit
  /-- Looks up a program in a tree. -/
  which : Tree → String → Except Stop (Option String)
  /-- The home directory, if there is one. -/
  home : Option Path
  /-- The cleanup of byproducts. -/
  cleaner : Cleanup → ExceptT Crash (Work Note Tree) Cleanup
  /-- How long the compilation takes by the clock. -/
  elapsed : Elapsed := .zero

namespace Compilation

/-- Work of a compilation that may stop. -/
abbrev Stage (α : Type) : Type := ExceptT Stop (Work Event Attempt) α

variable (c : Compilation)

/-! ### Steps -/

/-- The attempt as it stands. -/
def current : Work Event Attempt Attempt := Work.look

/-- Changes the attempt. -/
def update (f : Attempt → Attempt) : Work Event Attempt Unit := Work.change f

/-- Records an event. -/
def record (e : Event) : Work Event Attempt Unit := Work.emit e

/-- Does a chore on the tree of the attempt. -/
def chore {α : Type} (w : Chore α) : Work Event Attempt α :=
  Work.within Event.note? Event.note (·.tree) (fun t a => { a with tree := t }) w

/-- Does a chore as a part of a stage. -/
def Stage.chore {α : Type} (w : Chore α) : Stage α := ExceptT.lift (Compilation.chore w)

/-- Takes what a collaborator gives, or stops with what it raised. -/
def Stage.accept {α : Type} (role : Role) : Except Stop α → Stage α
  | .ok a => return a
  | .error stop => do
    Compilation.record (.raised role stop)
    throw stop

/-- Lets a collaborator do its part. -/
def Stage.call {α : Type} (role : Role) (w : ExceptT Stop (Work Note Tree) α) : Stage α := do
  Stage.accept role (← Stage.chore w.run)

/-- Logs a message. -/
def log (level : Level) (text : String) : Work Event Attempt Unit := chore (Chore.log level text)

/-- Logs messages. -/
def logAll : List Message → Work Event Attempt Unit
  | [] => return ()
  | m :: rest => do
    record (.note (.logged m))
    logAll rest

/-- Shows a piece of text. -/
def display (line : ProgressLine) : Work Event Attempt Unit := record (.shown line)

/-- Shows pieces of text. -/
def displayAll : List ProgressLine → Work Event Attempt Unit
  | [] => return ()
  | line :: rest => do
    display line
    displayAll rest

/-- Enters a phase. -/
def enter (phase : Phase) : Work Event Attempt Unit := do
  let a ← current
  log .debug (c.target.name ++ ": " ++ a.phase.text ++ " -> " ++ phase.text)
  update fun a => { a with phase }
  record (.entered phase)

/-- Keeps the logs of this attempt. -/
def keepLogs : Work Event Attempt Unit :=
  update fun a => { a with cleanup := a.cleanup.keepLogs }

/-! ### Validating -/

/-- The directives of the document; one that cannot be read has none, and that is logged. -/
def readDirectives : Work Event Attempt Directives := do
  let a ← current
  match a.tree.read c.here c.target with
  | .ok content => return Directives.ofBytes content
  | .error e =>
    log .error ("Unable to read magic comments from " ++ c.target.name ++ ": " ++ e.message)
    return {}

/-- Whether the name of the document has a blank in it. -/
def hasBlankName : Bool := c.target.name.toList.any isBlank

/-- Why the document cannot be compiled, if it cannot. -/
def rejection? (t : Tree) : Option String :=
  if c.hasBlankName then
    some ("Invalid filename: '" ++ c.target.name ++ "' (TeX does not understand paths with spaces)")
  else if t.contains c.here c.target then none
  else some ("File not found: " ++ toString c.target)

/-- Checks that the document can be compiled. -/
def checkTarget : Stage Unit := do
  let a ← current
  match c.rejection? a.tree with
  | some message => throw (.invalidInput message)
  | none => return ()

/-- Chooses the TeX program of the document. -/
def chooseProgram (directives : Directives) : Stage Path := do
  match TexProgram.supportedName directives c.settings with
  | .error problem => throw (.toolResolution problem.message)
  | .ok name =>
    let found ← Stage.accept .lookup (c.which (← current).tree name)
    match TexProgram.absolute c.here name found with
    | .error problem => throw (.toolResolution problem.message)
    | .ok program =>
      log .debug ("  Program: " ++ toString program)
      return program

/-- Checks the document and chooses its TeX program. -/
def validate : Stage (Directives × Path) := do
  c.enter .validating
  c.checkTarget
  if c.settings.cleanOutput then
    update fun a => { a with cleanup := a.cleanup.start c.here c.target }
  let directives ← c.readDirectives
  let program ← c.chooseProgram directives
  return (directives, program)

/-! ### Weaving -/

/-- Whether the document is literate. -/
def isLiterate : Bool := c.settings.literateExtensions.contains (lower c.target.suffix)

/-- Weaves the document. -/
def weave (directives : Directives) : Stage Concordance := do
  c.enter .weaving
  let result ← Stage.call .weaver (c.weaver c.target directives)
  record (.wove result)
  match result with
  | .woven _ concordance => return concordance
  | .failed reason => throw (.weave reason)

/-- Weaves the document if it is literate. Any other document needs no concordance. -/
def weaveLiterate (directives : Directives) : Stage Concordance :=
  if c.isLiterate then c.weave directives else return .empty

/-! ### Typesetting -/

/-- Asks the TeX program for its version. Not to know it is worth a warning. -/
def probeVersion (program : Path) : Stage String := do
  match ← Stage.chore (c.probe program).run with
  | .ok version =>
    log .debug ("  Version: " ++ String.ofList ((lines version.toList).headD []))
    return version
  | .error stop =>
    record (.raised .probe stop)
    match stop with
    | .version message =>
      log .warning message
      record (.warned message)
      return ""
    | stop => throw stop

/-- Runs the driver over the TeX document. -/
def drive (tex : Path) (options : TexOptions) : Stage Unit := do
  let driver ← Stage.accept .lookup (c.driver (← current).tree)
  log .debug ("  Driver: " ++ driver.name)
  display (.plain "\nRunning LaTeX compiler...")
  let result ← Stage.call .driver (driver.run tex options)
  record (.drove result)
  update fun a => { a with result := some result }

/-- Typesets the document with its TeX program. Gives the TeX document. -/
def typeset (program : Path) : Stage Path := do
  c.enter .typesetting
  update fun a => { a with typesetting := true }
  let version ← c.probeVersion program
  let tex := c.target.sibling ".tex"
  Stage.chore (removeStaleLogs c.here tex)
  c.drive tex { program, shellEscape := c.settings.shellEscape, version }
  return tex

/-! ### Reporting -/

/-- Hands the PDF to the viewer or the publisher. -/
def complete (pdf : Path) : ExceptT Crash (Work Event Attempt) Unit :=
  match c.completion with
  | .none => return ()
  | .view => do
    record (.viewed pdf)
    ExceptT.mk (chore (c.viewer pdf).run)
  | .publish =>
    match c.home with
    | none => throw .homeless
    | some home => do
      let name := pdf.aliased home
      record (.published name)
      ExceptT.mk (chore (c.publisher name).run)

/-- What is shown when the viewer or the publisher fails. -/
def completionFailure (pdf : Path) (e : Crash) : String :=
  "Unable to " ++ c.completion.text ++ " " ++ pdf.name ++ ": " ++ e.message ++ "\n"

/-- Does what is asked for with the PDF. A failure is reported and changes nothing else. -/
def runCompletion (pdf : Path) : Work Event Attempt Unit := do
  match ← (c.complete pdf).run with
  | .ok () => return ()
  | .error e =>
    log .error ("Completion action '" ++ c.completion.text ++ "' failed: " ++ e.message)
    display (.error (c.completionFailure pdf e))

/-- Reports a toolchain that succeeded. -/
def succeed (result : ToolOutput) : Work Event Attempt Outcome := do
  display (.plain "completed\n")
  let pdf := pdfPath c.target
  c.runCompletion pdf
  return { kind := .success, pdf := some pdf, status := some result.status,
           output := result.output, errors := result.errors }

/-- Reports a toolchain that failed, by the diagnostics in its logs. -/
def diagnose (program tex : Path) (concordance : Concordance) (result : ToolOutput) :
    Stage Outcome := do
  display (.plain "\n")
  -- from here on the logs are evidence, whether or not anything is found in them
  keepLogs
  match ← Stage.chore (Diagnostics.collect c.here tex concordance) with
  | .error e =>
    record (.undiagnosed e)
    throw (.crash e)
  | .ok diagnostics =>
    record (.diagnosed diagnostics)
    displayAll diagnostics.report.1
    match diagnostics.report.2, diagnostics.lines with
    | .error e, _ => throw (.crash e)
    | .ok (), .error e => throw (.crash e)
    | .ok (), .ok lines =>
      if diagnostics.found then
        return { kind := .diagnosticsAvailable
                 message := toString lines.length ++ " problems found compiling " ++ c.target.name
                 diagnostics := lines, status := some result.status,
                 output := result.output, errors := result.errors }
      else throw (.process program result.status)

/-- Reports what the toolchain left. -/
def report (program tex : Path) (concordance : Concordance) : Stage Outcome := do
  c.enter .reporting
  let result := (← current).result.getD {}
  if result.status = 0 then c.succeed result
  else c.diagnose program tex concordance result

/-! ### The whole -/

/-- Takes the document through its phases. -/
def pipeline : Stage Outcome := do
  let (directives, program) ← c.validate
  let concordance ← c.weaveLiterate directives
  let tex ← c.typeset program
  c.report program tex concordance

/-- Reports a stop. -/
def fail (stop : Stop) : Work Event Attempt Outcome := do
  match stop with
  | .crash _ => log .error ("Unexpected error compiling " ++ c.target.name)
  | _ => pure ()
  c.enter .reporting
  let a ← current
  if a.typesetting then keepLogs
  display (.error (stop.message ++ "\n"))
  return stop.outcome a.result

/-- Takes the document through its phases and turns a stop into an outcome. -/
def attempt : Work Event Attempt Outcome := do
  match ← c.pipeline.run with
  | .ok outcome => return outcome
  | .error stop => c.fail stop

/-- Does all of an attempt but its end. -/
def carryOut : Work Event Attempt Outcome := do
  logAll (startMessages c.target c.completion.text)
  c.attempt

/-- Ends the attempt: byproducts are cleaned up. -/
def finish : Work Event Attempt Unit := do
  c.enter .finished
  let a ← current
  match ← chore (c.cleaner a.cleanup).run with
  | .ok cleanup => update fun a => { a with cleanup }
  | .error e => log .error ("Cleanup failed for " ++ c.target.name ++ ": " ++ e.message)

/-- Runs an attempt that has not been run before; there is no outcome otherwise. -/
def run : Work Event Attempt (Option Outcome) := do
  let a ← current
  if a.phase ≠ .created then return none
  let outcome ← c.carryOut
  c.finish
  logAll (outcome.messages c.target c.elapsed false)
  return some outcome

end Compilation

end Galley
