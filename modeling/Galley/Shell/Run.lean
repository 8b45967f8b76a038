import Galley.Program.Start
import Galley.Shell.Format
import Galley.Shell.Script
import Galley.Text.Lines

/-!
# Running shell scripts

The shell carries out the commands of a script one after the other. It has the builtin commands
`:`, `true`, `false`, `exit`, `echo`, `printf`, `pwd`, `cd`, `export` and `kill`, and there are no
other programs for it to start. It ends with the status of its last command, or as soon as it
exits or is killed.
-/

namespace Galley.Shell

open Text

/-- A shell at work. -/
structure State where
  tree : Tree
  here : Path
  environment : Environment
  /-- The name of the script, and the arguments behind it. -/
  name : String
  arguments : List String := []
  /-- The status of the last command. -/
  status : Int := 0
  /-- How it ended, if it did. -/
  ended : Option Int := none
  output : List UInt8 := []
  errors : List UInt8 := []

/-- What a builtin command does. -/
structure Effect where
  status : Int := 0
  output : List UInt8 := []
  errors : List UInt8 := []
  ended : Option Int := none
  here : Option Path := none
  assigned : List (String × String) := []

/-- The number of the process of every shell: no script can compare it to another one. -/
def processNumber : String := "1"

/-- The variable that holds the current directory. -/
def directoryVariable : String := "PWD"

/-- The status of a command that is used in a wrong way. -/
def misuse : Int := 2

/-- The status of a command that is not there. -/
def notThere : Int := 127

namespace State

/-- A message of the shell about itself. -/
def complaint (s : State) (text : String) : List UInt8 :=
  utf8Encode (s.name ++ ": 1: " ++ text ++ "\n")

/-- The value of a parameter. -/
def parameter (s : State) (name : String) : String :=
  match name with
  | "$" => processNumber
  | "?" => toString s.status
  | "#" => toString s.arguments.length
  | "@" => " ".intercalate s.arguments
  | "*" => " ".intercalate s.arguments
  | "0" => s.name
  | name =>
    match name.toNat? with
    | some n => (s.arguments[n - 1]?).getD ""
    | none => (s.environment.get? name).getD ""

/-- How the shell has ended. -/
def ending (s : State) : Int := s.ended.getD s.status

end State

/-! ### Expansion -/

/-- Whether a byte cuts what was expanded into fields. -/
def isSeparator (b : UInt8) : Bool := b == 32 || b == 9 || b == 10

/-- The bytes of a word so far: the finished fields, and the field at hand, if it has begun. -/
abbrev Fields : Type := List (List UInt8) × Option (List UInt8)

/-- Goes on with the field at hand. -/
def Fields.extend (f : Fields) (bytes : List UInt8) : Fields :=
  (f.1, some (f.2.getD [] ++ bytes))

/-- Adds what was expanded outside of quotes. -/
def Fields.cut (f : Fields) : List UInt8 → Fields
  | [] => f
  | b :: r =>
    if isSeparator b then Fields.cut (f.1 ++ f.2.toList, none) r
    else Fields.cut (f.extend [b]) r

/-- Adds the value of an expansion. -/
def Fields.add (f : Fields) (quoted : Bool) (value : List UInt8) : Fields :=
  if quoted then f.extend value else f.cut value

/-- The text without the line feeds at its end. -/
def dropFinalBreaks (bytes : List UInt8) : List UInt8 :=
  (bytes.reverse.dropWhile (· == 10)).reverse

/-! ### Builtin commands -/

/-- The signals by name. -/
def signals : List (String × Nat) :=
  [("HUP", 1), ("INT", 2), ("QUIT", 3), ("ABRT", 6), ("KILL", 9), ("USR1", 10), ("SEGV", 11),
    ("USR2", 12), ("PIPE", 13), ("ALRM", 14), ("TERM", 15), ("CHLD", 17), ("CONT", 18)]

/-- The signals that do not end a process; zero only asks whether the process is there. -/
def harmless : List Nat := [0, 17, 18, 23, 28]

/-- The signal that an argument asks for, by number or by name. -/
def signal? (text : String) : Option Nat :=
  (text.toNat?.filter (· < 65)).or (signals.lookup text)

/-- The signal and the processes that the arguments of `kill` ask for. -/
def killRequest : List String → Option (Nat × List String)
  | "-s" :: name :: processes => (signal? name).map (·, processes)
  | first :: rest =>
    match first.toList with
    | '-' :: name => (signal? (String.ofList name)).map (·, rest)
    | _ => some (15, first :: rest)
  | [] => none

/-- Carries out a builtin command, if there is one of the name. -/
def builtin? (s : State) (name : String) (arguments : List (List UInt8)) : Option Effect :=
  let texts := arguments.map fun a => String.ofList (utf8Lossy a)
  match name with
  | ":" => some {}
  | "true" => some {}
  | "false" => some { status := 1 }
  | "exit" =>
    match texts with
    | [] => some { status := s.status, ended := some s.status }
    | text :: _ =>
      match text.toNat? with
      | some n => some { status := (n % 256 : Nat), ended := some (n % 256 : Nat) }
      | none =>
        some { status := misuse, ended := some misuse
               errors := s.complaint ("exit: Illegal number: " ++ text) }
  | "echo" =>
    let (shown, final) :=
      match texts with
      | "-n" :: rest => (rest, [])
      | rest => (rest, [(10 : UInt8)])
    let text := (" ".intercalate shown).toList
    let (bytes, ended) := resolve (text.length + 1) text
    some { output := bytes ++ (if ended then [] else final) }
  | "printf" =>
    match arguments with
    | [] =>
      some { status := misuse, errors := s.complaint "printf: usage: printf format [arg ...]" }
    | text :: rest =>
      let (bytes, fits) := format text rest
      some { output := bytes, status := if fits then 0 else 1 }
  | "pwd" => some { output := utf8Encode (toString s.here ++ "\n") }
  | "cd" =>
    let target := texts.headD ((s.environment.get? "HOME").getD "")
    let there := s.here.locate (Path.ofString target)
    if s.tree.isDirectory s.here there then
      some { here := some there, assigned := [(directoryVariable, toString there)] }
    else some { status := misuse, errors := s.complaint ("cd: can't cd to " ++ target) }
  | "export" =>
    some { assigned := texts.filterMap fun t =>
      (cutFirst? '=' t.toList).map fun (n, v) => (String.ofList n, String.ofList v) }
  | "kill" =>
    match killRequest texts with
    | some (n, processes) =>
      if !processes.contains processNumber then
        some { status := 1, errors := s.complaint "kill: No such process" }
      else if harmless.contains n then some {}
      else some { status := -(n : Int), ended := some (-(n : Int)) }
    | none => some { status := misuse, errors := s.complaint "kill: Illegal number" }
  | _ => none

/-! ### Redirection -/

/-- Where a stream leads. -/
inductive Sink where
  | output
  | errors
  | file (p : Path)
  deriving DecidableEq, Repr

/-- Writes bytes to where a stream leads. -/
def State.deliver (s : State) (sink : Sink) (bytes : List UInt8) : State :=
  match sink with
  | .output => { s with output := s.output ++ bytes }
  | .errors => { s with errors := s.errors ++ bytes }
  | .file p => { s with tree := (s.tree.append s.here p bytes).toOption.getD s.tree }

/-- Where the two streams of a command lead. -/
structure Sinks where
  output : Sink := .output
  errors : Sink := .errors

/-- The streams with one of them led elsewhere. -/
def Sinks.set (k : Sinks) (n : Nat) (sink : Sink) : Sinks :=
  if n = 1 then { k with output := sink } else if n = 2 then { k with errors := sink } else k

/-- Where a stream leads. -/
def Sinks.get (k : Sinks) (n : Nat) : Sink := if n = 2 then k.errors else k.output

/-- The wording of a fault when a file is opened for output. -/
def creationFault : Fault → String
  | .notFound => "Directory nonexistent"
  | fault => fault.text

/-- Opens a file for output. -/
def State.openFile (s : State) (append : Bool) (p : Path) : Except FileError State := do
  let tree ← if append then s.tree.append s.here p [] else s.tree.write s.here p []
  return { s with tree }

/-! ### Commands -/

/-- The variable that a word sets, if it is an assignment. -/
def assignment? (field : List UInt8) : Option (String × String) := do
  let (name, value) ← cutFirst? '=' (utf8Lossy field)
  if name.all isNameChar && name.head?.any fun c => !c.isDigit then
    some (String.ofList name, String.ofList value)
  else none

/-- What an effect makes of a shell. -/
def State.apply (s : State) (k : Sinks) (e : Effect) : State :=
  let s := (s.deliver k.output e.output).deliver k.errors e.errors
  { s with
    status := e.status, ended := s.ended.or e.ended, here := e.here.getD s.here
    environment := e.assigned.foldl (fun v (name, value) => v.set name value) s.environment }

/-- Carries out a command whose words are expanded. -/
def State.perform (s : State) (k : Sinks) (fields : List (List UInt8)) : State :=
  let words := fields.dropWhile fun f => (assignment? f).isSome
  match words with
  | [] =>
    let set := fields.filterMap assignment?
    { s with
      status := if set = [] then s.status else 0
      environment := set.foldl (fun v (name, value) => v.set name value) s.environment }
  | name :: arguments =>
    let command := String.ofList (utf8Lossy name)
    match builtin? s command arguments with
    | some e => s.apply k e
    | none => s.apply k { status := notThere, errors := s.complaint (command ++ ": not found") }

/-- Whether a command is due after one with the status given. -/
def Condition.holds : Condition → Int → Bool
  | .always, _ => true
  | .afterSuccess, status => status == 0
  | .afterFailure, status => status != 0

mutual

/-- Adds a piece of a word to its fields; scripts in it nest at most `depth` deep. -/
def expandPiece : Nat → Piece → State → Fields → State × Fields
  | _, .text t, s, f => (s, f.extend (utf8Encode (String.ofList t)))
  | _, .parameter name quoted, s, f => (s, f.add quoted (utf8Encode (s.parameter name)))
  | 0, .output _ _, s, f => (s, f)
  | depth + 1, .output script quoted, s, f =>
    let inner := runText depth script { s with output := [] }
    let s := { s with tree := inner.tree, errors := inner.errors, status := inner.ending }
    (s, f.add quoted (dropFinalBreaks inner.output))

/-- Adds the pieces of a word to its fields. -/
def expandPieces : Nat → List Piece → State → Fields → State × Fields
  | _, [], s, f => (s, f)
  | 0, _, s, f => (s, f)
  | depth + 1, p :: rest, s, f =>
    let (s, f) := expandPiece depth p s f
    expandPieces depth rest s f

/-- The fields of words. -/
def expandWords : Nat → List Word → State → State × List (List UInt8)
  | _, [], s => (s, [])
  | 0, _, s => (s, [])
  | depth + 1, w :: rest, s =>
    let (s, (done, last)) := expandPieces depth w.pieces s ([], if w.quoted then some [] else none)
    let (s, more) := expandWords depth rest s
    (s, done ++ last.toList ++ more)

/-- Leads the streams of a command where its redirections say. The first one that fails is
reported. -/
def redirect : Nat → List (Nat × Target) → State → Sinks → State × Option Sinks
  | _, [], s, k => (s, some k)
  | 0, _, s, _ => (s, none)
  | depth + 1, (n, target) :: rest, s, k =>
    match target with
    | .stream m => redirect depth rest s (k.set n (k.get m))
    | .file append name =>
      let (s, fields) := expandWords depth [name] s
      let text := String.ofList (utf8Lossy (fields.headD []))
      let p := Path.ofString text
      match s.openFile append p with
      | .ok s => redirect depth rest s (k.set n (.file p))
      | .error e =>
        let reason := "cannot create " ++ text ++ ": " ++ creationFault e.fault
        (s.apply k { status := misuse, errors := s.complaint reason }, none)

/-- Carries out the commands of a script. -/
def runScript : Nat → Script → State → State
  | _, [], s => s
  | 0, _, s => s
  | depth + 1, (condition, command) :: rest, s =>
    if s.ended.isSome then s
    else if !condition.holds s.status then runScript depth rest s
    else
      let (s, fields) := expandWords depth command.words s
      let s :=
        match redirect depth command.redirections s {} with
        | (s, some k) => s.perform k fields
        | (s, none) => s
      runScript depth rest s

/-- Carries out a text. -/
def runText : Nat → List Char → State → State
  | 0, _, s => s
  | depth + 1, text, s =>
    match Script.read text with
    | .ok script => runScript depth script s
    | .error e =>
      { s with
        status := misuse, ended := some misuse
        errors := s.errors ++ s.complaint ("Syntax error: " ++ e.message) }

end

/-- Carries out a script with its arguments. -/
def run (script : String) (s : State) : State :=
  runText (8 * script.length + 16) script.toList s

end Galley.Shell
