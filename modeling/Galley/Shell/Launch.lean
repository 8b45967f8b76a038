import Galley.Shell.Run

/-!
# Launching programs

A launch goes into the directory of the start, looks for the program and hands over to it. A
program that is not a path is looked for along the search path of the environment that it gets,
and the first candidate that is there decides. The shell is the only program that can be run;
everything else is refused with the fault that the system reports for it.
-/

namespace Galley.Shell

open Text

/-- Where the shell is found. -/
def location : Path := Path.ofString "/bin/sh"

/-- Where programs are looked for without a search path. -/
def defaultSearch : String := "/bin:/usr/bin"

/-- The search path that a shell starts with if it is given none. -/
def shellSearch : String := "/usr/local/sbin:/usr/local/bin:/usr/sbin:/usr/bin:/sbin:/bin"

/-- The variables that a shell starts with: those it is given, and the directory it is in. -/
def startVariables (e : Environment) (here : Path) : Environment :=
  let e := if e.get? "PATH" = none then e.set "PATH" shellSearch else e
  e.set directoryVariable (toString here)

/-- The spellings that a program is looked for under. -/
def candidates (e : Environment) (program : String) : List String :=
  if program.toList.contains '/' then [program]
  else
    (fields ':' ((e.get? "PATH").getD defaultSearch).toList).map fun d =>
      Host.spellIn (String.ofList d) program

/-- The fault of a program that is no shell. -/
def fault (t : Tree) (here : Path) (spelling : String) : Fault :=
  match t.find here (Path.ofString spelling) with
  | .error fault => fault
  | .ok (_, .directory) => .denied
  | .ok (_, .file _ false) => .denied
  | .ok (_, .file _ true) => .notAProgram

/-- Whether a fault only means that a candidate is not there. -/
def isAbsence (f : Fault) : Bool := f == .notFound || f == .notADirectory

/-- Looks for the shell among candidates. If it is not found, the first fault that is more than an
absence is reported, else the last one. -/
def search (t : Tree) (here : Path) (found : Fault) : List String → Except Fault Unit
  | [] => .error found
  | spelling :: rest =>
    if here.join (Path.ofString spelling) = location then .ok ()
    else
      -- a fault that is more than an absence is kept
      let f := fault t here spelling
      search t here (if isAbsence found then f else found) rest

/-- Runs the script in a file. -/
def runFile (file : String) (arguments : List String) (s : State) : State :=
  match s.tree.find s.here (Path.ofString file) with
  | .ok (_, .file content _) =>
    run (String.ofList (utf8Lossy content)) { s with name := file, arguments }
  | .ok (_, .directory) => s
  | .error _ =>
    { s with
      status := misuse
      errors := utf8Encode (s.name ++ ": 0: cannot open " ++ file ++ ": No such file\n") }

/-- Runs the shell with its arguments. -/
def runArguments (name : String) (arguments : List String) (s : State) : State :=
  match arguments with
  | "-c" :: script :: [] => run script { s with name }
  | "-c" :: script :: name :: arguments => run script { s with name, arguments }
  | ["-c"] =>
    { s with
      status := misuse
      errors := utf8Encode (name ++ ": 0: -c requires an argument\n") }
  | file :: arguments => runFile file arguments s
  | [] => s

/-- Goes into the directory of a start, or gives the reason why that cannot be done. -/
def enter (t : Tree) (here : Path) : Option Path → Except String Path
  | none => .ok here
  | some p =>
    match t.find here p with
    | .ok (_, .directory) => .ok (here.locate p)
    | .ok _ => .error (Fault.notADirectory.messageAt p.valueText)
    | .error fault => .error (fault.messageAt p.valueText)

/-- Launches a program. -/
def launch (h : Host) (s : Start) (t : Tree) : Ending (List UInt8) × Tree :=
  match enter t h.here s.directory with
  | .error reason => (.refused reason, t)
  | .ok here =>
    let environment := s.environment.getD h.environment
    let program := s.command.headD ""
    match search t here .notFound (candidates environment program) with
    | .error fault => (.refused (FileError.message ⟨fault, program⟩), t)
    | .ok () =>
      let environment := startVariables environment here
      let start : State := { tree := t, here, environment, name := program }
      let s := runArguments program s.command.tail start
      (.exited s.ending s.output s.errors, s.tree)

/-- Output that is read as text, with its line breaks unified. -/
def readOutput (bytes : List UInt8) : String := String.ofList (unifyBreaks (utf8Lossy bytes))

/-- The programs of a host where the shell is the only one. -/
def programs (h : Host) : Programs where
  bytes _ s t := launch h s t
  text _ s t :=
    match launch h s t with
    | (.exited status output errors, t) =>
      (.exited status (readOutput output) (readOutput errors), t)
    | (.refused reason, t) => (.refused reason, t)
    | (.broken message, t) => (.broken message, t)

end Galley.Shell
