import Galley.CommandLine.Session
import Galley.Settings.Document
import Std.Time

/-!
# Command line

The outer layer: the arguments, the variables, the clock and the files that a command line may
look at are read, the session is carried out on them, and what it wrote and changed is written
back. It decides nothing itself.

No other program is started from here: every start is refused.
-/

namespace Galley.Main

/-- The variables that a session looks at. -/
def variableNames : List String :=
  ["PATH", "HOME", Settings.fileVariable, recordsVariable] ++
    Field.all.filterMap Field.variableName?

/-- The environment of this process, as far as a session looks at it. -/
def readEnvironment : IO Environment := do
  let values ← variableNames.mapM fun name => do
    return (← IO.getEnv name).map fun value => (name, value)
  return ⟨values.filterMap id⟩

/-- The moment at which a session starts. -/
def readClock : IO Clock := do
  let now ← Std.Time.PlainDateTime.now
  return ⟨now.year.toInt.toNat, now.month.val.toNat, now.day.val.toNat, now.hour.val.toNat,
    now.minute.val.toNat, now.second.val.toNat⟩

/-- The suffixes of the files next to a document that a session may look at or remove. -/
def suffixes : List String :=
  ["", ".tex", ".pdf", ".idx"] ++ Cleanup.auxiliarySuffixes ++ Cleanup.logSuffixes ++
    [Cleanup.bibliographySuffix, Cleanup.bibliographySourceSuffix]

/-- The files that a session may look at. -/
def files (host : Host) (command : Command) : List Path :=
  let around (target : Path) : List Path := target :: suffixes.map target.sibling
  match command with
  | .usage => []
  | .clean target _ => around target
  | .compile request =>
    around request.target ++ (Settings.file? host.environment request.config).toList

/-- Reads files into a tree; one that cannot be read is left out. -/
def readTree (here : Path) (ps : List Path) : IO Tree := do
  let start := (Tree.makeDirectories {} here here).toOption.getD {}
  ps.foldlM (fun t p => do
    try
      let content ← IO.FS.readBinFile (toString (here.join p))
      return (t.provide here (here.join p) (some content.toList)).toOption.getD t
    catch _ => return t) start

/-- Writes what differs between two trees. -/
def writeChanges (before after : Tree) : IO Unit := do
  for (place, node) in before.below [] do
    if let .file _ _ := node then
      if after.node? place = none then
        IO.FS.removeFile (toString (⟨.root, place⟩ : Path))
  for (place, node) in after.below [] do
    if before.node? place ≠ some node then
      let spelling := toString (⟨.root, place⟩ : Path)
      match node with
      | .directory => IO.FS.createDirAll spelling
      | .file content _ => IO.FS.writeBinFile spelling ⟨content.toArray⟩

/-- The programs of a session that starts none. -/
def noPrograms : Programs where
  text _ _ t := (.refused "no program can be started", t)
  bytes _ _ t := (.refused "no program can be started", t)

/-- What a session works with. -/
def workplace (host : Host) (now : Clock) (arguments : List String) : Workplace where
  host := host
  programs := noPrograms
  library := .documents
  parse := Command.read
  viewer _ := throw (.other "no viewer")
  invocation := ⟨"Lean 4", " ".intercalate ("quire" :: arguments), host.here⟩
  now := now
  stamp := ⟨now.dateAndTime, now.time⟩

/-- Writes what a session wrote. -/
def writeReport (r : Report) : IO Unit := do
  for piece in r.written do
    match piece with
    | .output text => IO.print text
    | .errors text => IO.eprint text
  match r.conclusion with
  | .failed (.settings e) => IO.eprintln e.message
  | .failed (.log e) => IO.eprintln e.message
  | _ => return

end Galley.Main

open Galley in
/-- Carries out the command line of this process. -/
def main (arguments : List String) : IO UInt32 := do
  let host : Host := ⟨Path.ofString (toString (← IO.currentDir)), ← Main.readEnvironment⟩
  let now ← Main.readClock
  let files := ((Command.read arguments).toOption.map (Main.files host)).getD []
  let before ← Main.readTree host.here files
  let r := (Main.workplace host now arguments).run before arguments
  Main.writeChanges before r.tree
  Main.writeReport r
  return r.conclusion.status.toUInt32
