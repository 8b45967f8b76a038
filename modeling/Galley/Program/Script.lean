import Galley.Program.Start
import Galley.Text.Utf8

/-!
# Scripted programs

Programs whose behaviour is written down beforehand. A script has a list of runs for each name; a
program's n-th start takes the n-th run, and the last run is repeated. Starts that only ask for a
version have a name of their own.
-/

namespace Galley

open Text

/-- One run of a scripted program. Its paths are read from the directory that it runs in. -/
structure ScriptedRun where
  /-- What is taken away first, with everything below it. -/
  deleted : List Path := []
  /-- What is written then: files, and directories where there is no content. -/
  written : List (Path × Option (List UInt8)) := []
  ending : Ending (List UInt8) := .exited 0 [] []
  deriving DecidableEq, Repr

/-- The runs of programs by name. -/
structure Script where
  runs : List (String × List ScriptedRun) := []
  deriving DecidableEq, Repr

namespace ScriptedRun

/-- The tree after some writes, or the first error. -/
def writeAll (here : Path) (t : Tree) :
    List (Path × Option (List UInt8)) → Tree × Option FileError
  | [] => (t, none)
  | (p, content) :: rest =>
    match t.provide here (here.join p) content with
    | .ok t' => writeAll here t' rest
    | .error e => (t, some e)

/-- What a run does to the tree and how it ends. A write that fails keeps it from starting. -/
def act (here : Path) (r : ScriptedRun) (t : Tree) : Ending (List UInt8) × Tree :=
  let t := r.deleted.foldl (fun t p => t.removeAll here p) t
  match writeAll here t r.written with
  | (t, none) => (r.ending, t)
  | (t, some e) => (.refused e.message, t)

end ScriptedRun

namespace Script

/-- The name under which a start is looked up. -/
def key (s : Start) : String :=
  match s.command with
  | [_, "--version"] => "version"
  | program :: _ => String.ofList ((fields '/' program.toList).getLastD [])
  | [] => ""

/-- The run of a start, given the starts before it. -/
def runOf (script : Script) (past : List Start) (s : Start) : ScriptedRun :=
  let runs := (script.runs.lookup (key s)).getD []
  let n := past.countP fun before => key before == key s
  (runs[n]?.or runs.getLast?).getD {}

/-- An ending with its output read as text. -/
def textEnding : Ending (List UInt8) → Ending String
  | .exited status output errors =>
    .exited status (String.ofList (utf8Lossy output)) (String.ofList (utf8Lossy errors))
  | .refused reason => .refused reason
  | .broken message => .broken message

/-- The programs of a script, `here` being the current directory of the host. -/
def programs (script : Script) (here : Path) : Programs where
  bytes past s t := (script.runOf past s).act (here.join (s.directory.getD here)) t
  text past s t :=
    let (ending, t) := (script.runOf past s).act (here.join (s.directory.getD here)) t
    (textEnding ending, t)

end Script

end Galley
