import Galley.Crash
import Galley.Program.Start
import Galley.Settings.Basic
import Galley.Text.Latin1
import Galley.Toolchain.Options
import Galley.Toolchain.Output

/-!
# Drivers

A **driver** runs the toolchain over one document. There are two of them:

* **texi2dvi** leaves everything to the program of that name, which decides how often the TeX
  program and which other tools run.
* **emulated** runs the TeX program itself, then BibTeX and MakeIndex if the document needs them,
  and the TeX program again until the cross-references have settled.

Both work in the directory of the document. No step is tried twice.
-/

namespace Galley

open Text

/-- A program of the toolchain that could not be started. -/
structure LaunchError where
  program : String
  cause : Option String := none
  deriving DecidableEq, Repr

/-- The text of a launch error. -/
def LaunchError.message (e : LaunchError) : String :=
  "could not run " ++ e.program ++
    match e.cause with
    | some cause => " (" ++ cause ++ ")"
    | none => ""

/-- Why a driver gives no result. -/
inductive DriverError where
  | launch (e : LaunchError)
  | crash (e : Crash)
  deriving DecidableEq, Repr

/-- The text of a driver error. -/
def DriverError.message : DriverError → String
  | .launch e => e.message
  | .crash e => e.message

/-- Work of the toolchain. -/
abbrev ToolWork (α : Type) : Type := ExceptT DriverError (Work Note Tree) α

/-- A driver: its name and what it does with a document. It may fail with an `ε`. -/
structure Driver (ε : Type) where
  name : String
  run : Path → TexOptions → ExceptT ε (Work Note Tree) ToolOutput

/-- The driver with its errors seen as others. -/
def Driver.adapt {ε ε' : Type} (d : Driver ε) (f : ε → ε') : Driver ε' where
  name := d.name
  run tex o := ExceptT.adapt f (d.run tex o)

namespace Toolchain

/-- Starts a program and waits for its end. -/
def runProgram (programs : Programs) (s : Start) : ToolWork ToolOutput := do
  Chore.log .debug ("  $ " ++ " ".intercalate s.command)
  let ending ← (Chore.start programs.text s : Chore _)
  match ending with
  | .exited status output errors => return ⟨status, output, errors, [s.command]⟩
  | .refused reason => throw (.launch ⟨s.command.headD "", some reason⟩)
  | .broken message => throw (.crash (.other message))

/-! ### texi2dvi -/

/-- The start of texi2dvi: the TeX program is handed over in two variables. -/
def texi2dviStart (host : Host) (texi2dvi : String) (tex : Path) (o : TexOptions) : Start where
  command := [texi2dvi, "--pdf", "--quiet", "--batch", tex.name]
  directory := some tex.parent
  environment :=
    some ((host.environment.set "PDFLATEX" o.commandLine).set "LATEX" o.commandLine)

/-- The driver that leaves everything to texi2dvi. -/
def texi2dvi (host : Host) (programs : Programs) (path : String) : Driver DriverError where
  name := "texi2dvi"
  run tex o := do
    Chore.log .info ("Running texi2dvi with " ++ o.program.name)
    runProgram programs (texi2dviStart host path tex o)

/-! ### The emulated driver -/

/-- What the emulated driver needs besides the document. -/
structure Emulation where
  here : Path
  programs : Programs
  /-- Looks up a program in a tree. -/
  which : Tree → String → Option String
  /-- How often the TeX program may run. -/
  maxPasses : Int

namespace Emulation

/-- Further passes after BibTeX: one for the citations, one for the references to them. -/
def passesAfterBibtex : Nat := 2

/-- The least status of BibTeX that is an error; below it stand the warnings. -/
def bibtexErrorStatus : Int := 2

/-- The words that ask for another pass. -/
def rerunRequests : List String := ["Rerun to get", "Please rerun", "Rerun LaTeX"]

/-- Whether a log asks for another pass. -/
def asksForRerun (log : List Char) : Bool := rerunRequests.any fun w => contains w.toList log

/-- The content of a file next to the document. -/
def readText (e : Emulation) (p : Path) : ToolWork (List Char) := do
  match (← Chore.tree).read e.here p with
  | .ok content => return latin1 content
  | .error error => throw (.crash (.file error))

/-- Whether the document has citations that BibTeX can resolve. -/
def needsBibtex (e : Emulation) (aux : Path) : ToolWork Bool := do
  let t ← Chore.tree
  if t.contains e.here aux && (e.which t "bibtex").isSome then
    return contains "\\bibdata".toList (← e.readText aux)
  else return false

/-- Whether the document has an index that MakeIndex can sort. -/
def needsMakeindex (e : Emulation) (idx : Path) : ToolWork Bool := do
  let t ← Chore.tree
  return t.contains e.here idx && (e.which t "makeindex").isSome

/-- Whether the last pass asked for another one. -/
def needsRerun (e : Emulation) (log : Path) : ToolWork Bool := do
  let t ← Chore.tree
  if t.contains e.here log then return asksForRerun (← e.readText log) else return false

/-- Further passes: while `pending` ones are due or the log asks for one, at most `allowed` of
them, and none after one that failed. Gives the combined output and the number of passes. -/
def furtherPasses (e : Emulation) (pass : ToolWork ToolOutput) (log : Path) :
    Nat → Nat → ToolOutput × Nat → ToolWork (ToolOutput × Nat)
  | 0, _, soFar => return soFar
  | allowed + 1, pending, (combined, passes) => do
    -- the log is looked at only when no pass is due anyway
    if pending == 0 then
      if !(← e.needsRerun log) then return (combined, passes)
    let combined := combined.extend (← pass)
    if combined.status ≠ 0 then return (combined, passes + 1)
    furtherPasses e pass log allowed (pending - 1) (combined, passes + 1)

/-- Runs the further passes; the first pass is done. -/
def settle (e : Emulation) (tex : Path) (pass : ToolWork ToolOutput) (pending : Nat)
    (combined : ToolOutput) : ToolWork ToolOutput := do
  let (combined, passes) ←
    e.furtherPasses pass (tex.sibling ".log") (e.maxPasses - 1).toNat pending (combined, 1)
  Chore.log .debug ("  Passes: " ++ toString passes)
  return combined

/-- Runs MakeIndex if it is needed, then the further passes. -/
def indexAndSettle (e : Emulation) (tex : Path) (pass : ToolWork ToolOutput) (pending : Nat)
    (combined : ToolOutput) : ToolWork ToolOutput := do
  let idx := tex.stem ++ ".idx"
  if ← e.needsMakeindex (tex.parent.child idx) then
    let combined := combined.extend
      (← runProgram e.programs ⟨["makeindex", idx], some tex.parent, none⟩)
    if combined.status ≠ 0 then return combined
    e.settle tex pass (max pending 1) combined
  else e.settle tex pass pending combined

/-- Runs the toolchain over a document. -/
def compile (e : Emulation) (tex : Path) (o : TexOptions) : ToolWork ToolOutput := do
  let pass := runProgram e.programs
    ⟨toString o.program :: o.arguments ++ [tex.name], some tex.parent, none⟩
  Chore.log .info ("Running " ++ o.program.name ++ " (emulated texi2dvi)")
  let combined ← pass
  if combined.status ≠ 0 then return combined
  if ← e.needsBibtex (tex.sibling ".aux") then
    let combined := combined.extend
      (← runProgram e.programs ⟨["bibtex", tex.stem], some tex.parent, none⟩)
    if bibtexErrorStatus ≤ combined.status then return combined
    if combined.status ≠ 0 then
      Chore.log .debug
        ("  bibtex reported warnings (exit code " ++ toString combined.status ++ ")")
    -- warnings of BibTeX are no reason to stop
    e.indexAndSettle tex pass passesAfterBibtex { combined with status := 0 }
  else e.indexAndSettle tex pass 0 combined

/-- The driver that runs every program itself. -/
def driver (e : Emulation) : Driver DriverError where
  name := "emulated"
  run := e.compile

end Emulation

/-! ### Choosing a driver -/

/-- Which driver is used. -/
inductive Choice where
  | texi2dvi (path : String)
  | emulated (maxPasses : Int)
  deriving DecidableEq, Repr

/-- The driver for a compilation: texi2dvi where it is preferred and installed. -/
def choose (which : String → Option String) (s : Settings) : Choice :=
  match if s.preferTexi2dvi then which "texi2dvi" else none with
  | some path => .texi2dvi path
  | none => .emulated s.maxPasses

/-- The driver of a choice. -/
def Choice.driver (host : Host) (programs : Programs) (which : Tree → String → Option String) :
    Choice → Driver DriverError
  | .texi2dvi path => Toolchain.texi2dvi host programs path
  | .emulated maxPasses => Emulation.driver ⟨host.here, programs, which, maxPasses⟩

end Toolchain

end Galley
