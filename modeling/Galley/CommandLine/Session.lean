import Galley.CommandLine.Command
import Galley.Compile.Default
import Galley.Journal.Record
import Galley.Settings.Load

/-!
# Sessions

A **session** carries out one command line on a tree. What it writes goes to the output or to the
errors, in the order in which things happen: the compiler's progress and the console's log lines
come in between each other.

A settings file that is missing and the error of a value are reported and end the command. Other
errors of the settings, and a log file that cannot be opened, are failures of the command itself.
-/

namespace Galley

/-- What a session works with. -/
structure Workplace where
  host : Host
  programs : Programs
  /-- What reads its settings. -/
  library : SettingsLibrary
  /-- What reads its command line. -/
  parse : List String → Except UsageError Command
  viewer : Path → ExceptT Crash (Work Note Tree) Unit
  invocation : Invocation
  /-- The moment it starts. -/
  now : Clock
  /-- How the moments of its messages are written. -/
  stamp : Stamp
  /-- How long a compilation takes by the clock. -/
  elapsed : Elapsed := .zero

/-- A piece of text that a session writes. -/
inductive Written where
  | output (text : String)
  | errors (text : String)
  deriving DecidableEq, Repr

/-- An error that no command reports. -/
inductive Failure where
  | settings (e : SettingsError)
  | log (e : FileError)
  deriving DecidableEq, Repr

/-- How a session ends. -/
inductive Conclusion where
  /-- The command was carried out. -/
  | done (status : Nat)
  /-- The usage was asked for. -/
  | usage
  /-- The command line is not understood. -/
  | misused (e : UsageError)
  /-- The settings cannot be loaded, which was reported. -/
  | refused (e : SettingsError)
  | failed (e : Failure)
  deriving DecidableEq, Repr

/-- The exit status of a session. -/
def Conclusion.status : Conclusion → Nat
  | .done status => status
  | .usage => 0
  | .misused _ => 2
  | .refused _ => 1
  | .failed _ => 1

/-- What a session leaves. -/
structure Report where
  written : List Written := []
  conclusion : Conclusion
  /-- The history of its compilation. -/
  events : List Event := []
  /-- All that was logged. -/
  logged : List Message := []
  tree : Tree

namespace Report

/-- All that was written to the output. -/
def output (r : Report) : String :=
  String.join (r.written.map fun
    | .output text => text
    | .errors _ => "")

/-- All that was written to the errors. -/
def errors (r : Report) : String :=
  String.join (r.written.map fun
    | .errors text => text
    | .output _ => "")

end Report

/-- Whether an error of the settings is reported by the compile command. -/
def SettingsError.isReported : SettingsError → Bool
  | .missing _ => true
  | .file e => e.fault == .notFound
  | .library e => e.isValue

/-- The settings as a request has them. -/
def CompileRequest.adjust (r : CompileRequest) (s : Settings) : Settings :=
  { s with
    shellEscape := r.shellEscape.getD s.shellEscape
    preferTexi2dvi := r.texi2dvi.getD s.preferTexi2dvi
    cleanOutput := s.cleanOutput && !r.keepArtifacts }

/-- What is done with the PDF of a request. -/
def CompileRequest.completion (r : CompileRequest) : Completion :=
  if r.view then .view else if r.publish then .publish else .none

/-- The variable that names the directory of the records. -/
def recordsVariable : String := "LOGS_PATH"

/-- The directory that the records of all sessions are kept in: the one that the environment names,
if it names one. -/
def recordsDirectory (e : Environment) : Path :=
  Path.ofString ((e.get? recordsVariable).getD "outs/logs")

namespace Workplace

variable (w : Workplace)

/-- The directory that the records of this session are kept in. -/
def records : Path :=
  (recordsDirectory w.host.environment).child ("render_" ++ w.now.stamp)

/-- What the console shows of messages. -/
def console (least : Level) (ms : List Message) : List Written :=
  (ms.filterMap (Message.onConsole? w.stamp least)).map .errors

/-- What a session writes when an event happens. -/
def written (least : Level) (e : Event) : List Written :=
  match e with
  | .shown line => [if line.isError then .errors line.text else .output line.text]
  | e => w.console least e.message?.toList

/-- What a session writes about the outcome of its compilation. -/
def summary (o : Outcome) : String :=
  if o.success then
    "✓ Compilation succeeded\n" ++
      (match o.pdf with
      | some pdf => "  PDF: " ++ toString pdf ++ "\n"
      | none => "")
  else
    let problems :=
      if o.diagnostics = [] then "(" ++ o.kind.text ++ ")"
      else "with " ++ toString o.diagnostics.length ++ " problems"
    "✗ Compilation failed " ++ problems ++ "\n"

/-- The compilation of a request. -/
def compilation (r : CompileRequest) (s : Settings) : Compilation :=
  { Compilation.onHost w.host w.programs w.viewer (toString r.target) r.completion s with
    elapsed := w.elapsed }

/-- Compiles a document with settings that are loaded, its log being open. -/
def compileRecorded (t : Tree) (r : CompileRequest) (s : Settings) : Report :=
  let least := consoleLevel r.verbose
  let file := (r.config.map toString).or (w.host.environment.get? Settings.fileVariable)
  let header := w.invocation.header (s.provenance file)
  let keep (t : Tree) (ms : List Message) : Tree := t.keepMessages w.host.here w.records w.stamp ms
  let d := (w.compilation r s).run.run { tree := keep t header }
  { written := w.console least header ++
      [.output ("\nCompiling: " ++ toString r.target ++ "\n")] ++
      d.events.flatMap (w.written least) ++
      [.output ("\n" ++ (d.result.map summary).getD "" ++
        "  Log: " ++ toString (sessionLog w.records) ++ "\n\n")]
    conclusion := .done (if d.result.any Outcome.success then 0 else 1)
    events := d.events
    logged := header ++ d.events.filterMap Event.message?
    tree := keep d.state.tree (d.events.filterMap Event.message?) }

/-- The compile command. -/
def compile (t : Tree) (r : CompileRequest) : Report :=
  if r.view && r.publish then
    { written := [.errors "Error: choose at most one of --view and --publish\n\n"]
      conclusion := .done 2, tree := t }
  else
    match Settings.load w.library w.host t r.config with
    | .error e =>
      if e.isReported then
        { written := [.errors ("Error: " ++ e.message ++ "\n\n")], conclusion := .refused e
          tree := t }
      else { conclusion := .failed (.settings e), tree := t }
    | .ok s =>
      match t.openLog w.host.here w.records with
      | .error e => { conclusion := .failed (.log e), tree := t }
      | .ok t => w.compileRecorded t r (r.adjust s)

/-- The clean command. -/
def clean (t : Tree) (target : Path) (keepLog : Bool) : Report :=
  let here := w.host.here
  let cleanup := ({} : Cleanup).start here (here.locate target)
  let d := ((if keepLog then cleanup.keepLogs else cleanup).run here).run t
  let removed := d.result.1
  let text :=
    if removed = [] then "Nothing to clean.\n"
    else "Removed " ++ toString removed.length ++ " files:\n" ++
      String.join (removed.map fun name => "  - " ++ name ++ "\n")
  { written := [.output text], conclusion := .done 0
    logged := d.events.filterMap Note.message?, tree := d.state }

/-- Carries out a command line. -/
def run (t : Tree) (words : List String) : Report :=
  match w.parse words with
  | .error e =>
    { written := [.errors (Command.usageText ++ "\nError: " ++ e.message ++ "\n")]
      conclusion := .misused e, tree := t }
  | .ok .usage => { written := [.output Command.usageText], conclusion := .usage, tree := t }
  | .ok (.compile request) => w.compile t request
  | .ok (.clean target keepLog) => w.clean t target keepLog

end Workplace

end Galley
