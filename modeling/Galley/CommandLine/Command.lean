import Galley.CommandLine.Argument
import Galley.Path

/-!
# Commands

There are two commands: one compiles a document, the other removes the byproducts next to it. A
command line that has no command, or asks for help, gets the usage. An option that is not known is
reported before help is given, and help is given before an argument is found missing.
-/

namespace Galley

/-- What the compile command is asked for. -/
structure CompileRequest where
  target : Path
  view : Bool := false
  publish : Bool := false
  /-- Whether shell commands are allowed, if that is to differ from the settings. -/
  shellEscape : Option Bool := none
  /-- Whether texi2dvi is preferred, if that is to differ from the settings. -/
  texi2dvi : Option Bool := none
  keepArtifacts : Bool := false
  config : Option Path := none
  verbose : Bool := false
  deriving DecidableEq, Repr

/-- What a command line asks for. -/
inductive Command where
  | usage
  | compile (request : CompileRequest)
  | clean (target : Path) (keepLog : Bool)
  deriving DecidableEq, Repr

namespace Command

/-- The option that asks for the usage. -/
def helpForm : OptionForm := ⟨"--help", false⟩

/-- The options of the compile command. -/
def compileForms : List OptionForm :=
  [helpForm, ⟨"--view", false⟩, ⟨"--publish", false⟩, ⟨"--shell-escape", false⟩,
    ⟨"--no-shell-escape", false⟩, ⟨"--texi2dvi", false⟩, ⟨"--no-texi2dvi", false⟩,
    ⟨"--keep-artifacts", false⟩, ⟨"-k", false⟩, ⟨"--config", true⟩, ⟨"-c", true⟩,
    ⟨"--verbose", false⟩, ⟨"-v", false⟩]

/-- The options of the clean command. -/
def cleanForms : List OptionForm := [helpForm, ⟨"--keep-log", false⟩]

/-- The usage of the program. -/
def usageText : String :=
  "Usage: quire [--help] COMMAND [ARGS]...\n\n" ++
    "Compile LaTeX and Rnw documents to PDF with diagnostics mapped to the source.\n\n" ++
    "  compile [OPTIONS] TARGET  Compile a document to PDF.\n" ++
    "  clean [OPTIONS] TARGET    Remove LaTeX byproducts next to a document.\n\n" ++
    "Options of compile:\n" ++ String.join (compileForms.map formLine) ++
    "Options of clean:\n" ++ String.join (cleanForms.map formLine)
where
  /-- The line of an option. -/
  formLine (form : OptionForm) : String :=
    "  " ++ form.spelling ++ (if form.takesValue then " VALUE" else "") ++ "\n"

/-- The one plain argument of a command. -/
def target (arguments : List Argument) : Except UsageError Path :=
  match arguments.filterMap Argument.plain? with
  | [] => .error .missingArgument
  | [text] => .ok (Path.ofString text)
  | _ :: text :: _ => .error (.extraArgument text)

/-- The request of the compile command. -/
def compileRequest (arguments : List Argument) : Except UsageError CompileRequest := do
  return {
    target := ← target arguments
    view := Argument.has arguments ["--view"]
    publish := Argument.has arguments ["--publish"]
    shellEscape := Argument.lastOf? arguments "--shell-escape" "--no-shell-escape"
    texi2dvi := Argument.lastOf? arguments "--texi2dvi" "--no-texi2dvi"
    keepArtifacts := Argument.has arguments ["--keep-artifacts", "-k"]
    config := (Argument.lastValue? arguments ["--config", "-c"]).map Path.ofString
    verbose := Argument.has arguments ["--verbose", "-v"] }

/-- Reads the words behind the name of a command. -/
def behind (forms : List OptionForm) (words : List String)
    (command : List Argument → Except UsageError Command) : Except UsageError Command := do
  let arguments ← Argument.readAll forms words
  if Argument.has arguments [helpForm.spelling] then return .usage
  command arguments

/-- Reads a command line. -/
def read (words : List String) : Except UsageError Command := do
  let (front, rest) ← Argument.readFront [helpForm] words
  if Argument.has front [helpForm.spelling] then return .usage
  match rest with
  | [] => return .usage
  | "compile" :: words =>
    behind compileForms words fun arguments => do
      return .compile (← compileRequest arguments)
  | "clean" :: words =>
    behind cleanForms words fun arguments => do
      return .clean (← target arguments) (Argument.has arguments ["--keep-log"])
  | name :: _ => throw (.unknownCommand name)

end Command

end Galley
