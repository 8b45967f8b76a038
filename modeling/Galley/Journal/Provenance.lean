import Galley.Journal.Message
import Galley.Path
import Galley.Settings.Basic

/-!
# Provenance

Every log of a session starts with what was run, where, and with which settings, between two
rules, so that a log explains itself.
-/

namespace Galley

/-- The settings that decide how a document is compiled, by name and in order; `file` is where
they were loaded from. -/
def Settings.provenance (s : Settings) (file : Option String) : List (String × String) :=
  [("Settings file", file.getD "(defaults and environment)"),
    ("LaTeX program", s.latexProgram),
    ("Driver preference", if s.preferTexi2dvi then "texi2dvi" else "emulated"),
    ("Shell escape", if s.shellEscape then "enabled" else "disabled"),
    ("Clean output", if s.cleanOutput then "yes" else "no (keep artifacts)"),
    ("Weave engine", s.weaveEngine)]

/-- What a session is told about itself. -/
structure Invocation where
  /-- The name and version of what runs the session. -/
  runtime : String
  /-- The command that started it. -/
  command : String
  /-- The current directory. -/
  here : Path
  deriving DecidableEq, Repr

/-- The name and version of this program. -/
def programVersion : String := "quire 0.1.0"

/-- The header of a session's log. -/
def Invocation.header (i : Invocation) (provenance : List (String × String)) : List Message :=
  let rule := String.ofList (List.replicate 80 '=')
  let lines := [rule, programVersion ++ " (" ++ i.runtime ++ ")", "Command: " ++ i.command,
    "Working directory: " ++ toString i.here] ++
    provenance.map (fun (name, value) => name ++ ": " ++ value) ++ [rule]
  lines.map fun text => ⟨.debug, text, false⟩

end Galley
