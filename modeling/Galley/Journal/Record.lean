import Galley.Journal.Provenance
import Galley.Text.Utf8
import Galley.Tree.Files

/-!
# Records of a session

A session is recorded twice. Its log file takes every message, and the console takes those from
a level on, in colour. Both write the moment, the level and the text of a message; only the first
line of a text has these in front. A verbatim message is written as it is.

The log file is opened once, at the start of the session. Should something take it away later,
messages are no longer kept.
-/

namespace Galley

/-- How the moment of a message is written. -/
structure Stamp where
  /-- In the log file: with the date. -/
  file : String
  /-- On the console: the time of the day. -/
  console : String
  deriving DecidableEq, Repr

namespace Level

/-- The width that the name of a level is padded to. -/
def width : Nat := 7

/-- The name of a level, padded. -/
def padded (l : Level) : String :=
  l.text ++ String.ofList (List.replicate (width - l.text.length) ' ')

/-- The control sequence of the terminal with a number. -/
def control (n : Nat) : String := "\x1b[" ++ toString n ++ "m"

/-- What turns on the colour of a level: bold for what goes well, and blue, green, yellow and red
for debugging, success, warnings and errors. -/
def colour : Level → String
  | .debug => control 34 ++ control 1
  | .info => control 1
  | .success => control 32 ++ control 1
  | .warning => control 33
  | .error => control 31

/-- A text in the colour of a level. -/
def paint (l : Level) (text : String) : String := l.colour ++ text ++ control 0

end Level

namespace Message

/-- A message as it stands in the log file. -/
def inFile (stamp : Stamp) (m : Message) : String :=
  if m.verbatim then m.text
  else stamp.file ++ " | " ++ m.level.padded ++ " | " ++ m.text ++ "\n"

/-- A message as it stands on the console. -/
def onConsole (stamp : Stamp) (m : Message) : String :=
  if m.verbatim then m.text
  else stamp.console ++ " | " ++ m.level.paint m.level.padded ++ " | " ++
    m.level.paint m.text ++ "\n"

/-- What the console shows of a message, if it shows messages from `least` on. -/
def onConsole? (stamp : Stamp) (least : Level) (m : Message) : Option String :=
  if least.rank ≤ m.level.rank then some (m.onConsole stamp) else none

end Message

/-- The least level that the console shows. -/
def consoleLevel (verbose : Bool) : Level := if verbose then .debug else .info

/-- The log file of a session whose records are kept in a directory. -/
def sessionLog (directory : Path) : Path := directory.child "render.log"

namespace Tree

/-- Opens the log file of a session, to be written at its end; the directories above it are made
as needed. -/
def openLog (t : Tree) (here directory : Path) : Except FileError Tree := do
  let t ← t.makeDirectories here directory
  (t.append here (sessionLog directory) []).mapError fun e =>
    { e with path := toString (here.join (sessionLog directory)).normalize }

/-- Writes messages at the end of a log file that is open. -/
def keepMessages (t : Tree) (here directory : Path) (stamp : Stamp) (ms : List Message) : Tree :=
  let log := sessionLog directory
  let written := Text.utf8Encode (String.join (ms.map (Message.inFile stamp)))
  match t.read here log with
  | .ok before => (t.write here log (before ++ written)).toOption.getD t
  | .error _ => t

end Tree

end Galley
