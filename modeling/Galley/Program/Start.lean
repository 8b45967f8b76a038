import Galley.Host
import Galley.Journal.Message
import Galley.Work

/-!
# Starting programs

A program is started with a command, possibly in a directory of its own and with an environment
of its own. What it does is given by `Programs`: how every start ends and what it leaves in the
tree, which may depend on the starts before it.

A **note** is an event of work on the tree: a message was logged, or a program was started.
-/

namespace Galley

/-- A start of a program. -/
structure Start where
  /-- The program and its arguments. -/
  command : List String
  /-- The directory it runs in, if not the current one. -/
  directory : Option Path := none
  /-- Its environment, if not the one of the host. -/
  environment : Option Environment := none
  deriving DecidableEq, Repr

/-- How the start of a program ends, with output of the type `ω`. -/
inductive Ending (ω : Type) where
  /-- The program ran. A negative status is the number of the signal that killed it. -/
  | exited (status : Int) (output errors : ω)
  /-- The system could not start it, for the reason given. -/
  | refused (reason : String)
  /-- Something else went wrong. -/
  | broken (message : String)
  deriving DecidableEq, Repr

/-- The status of a program that ran. -/
def Ending.status? {ω : Type} : Ending ω → Option Int
  | .exited status _ _ => some status
  | .refused _ => none
  | .broken _ => none

/-- What programs do, given the starts before, the start and the tree. -/
structure Programs where
  /-- Programs whose output is read as text. -/
  text : List Start → Start → Tree → Ending String × Tree
  /-- Programs whose output is read as bytes. -/
  bytes : List Start → Start → Tree → Ending (List UInt8) × Tree

/-- An event of work on the tree. -/
inductive Note where
  | logged (message : Message)
  /-- A program was started while the tree was like this; the status is there if it ran. -/
  | started (start : Start) (tree : Tree) (status : Option Int)

namespace Note

/-- The start that a note tells of. -/
def start? : Note → Option Start
  | .started s _ _ => some s
  | .logged _ => none

/-- The message that a note tells of. -/
def message? : Note → Option Message
  | .logged m => some m
  | .started _ _ _ => none

end Note

/-- Work on the tree. -/
abbrev Chore (α : Type) : Type := Work Note Tree α

namespace Chore

/-- The tree as it stands. -/
def tree : Chore Tree := Work.look

/-- Changes the tree. -/
def setTree (t : Tree) : Chore Unit := Work.change fun _ => t

/-- Logs a message of the compilation. -/
def log (level : Level) (text : String) : Chore Unit :=
  Work.emit (.logged (Message.render level text))

/-- Logs a message of weaving. -/
def logWeaving (level : Level) (text : String) : Chore Unit :=
  Work.emit (.logged (Message.weave level text))

/-- Starts a program: the start is noted, then the program changes the tree. -/
def start {ω : Type} (programs : List Start → Start → Tree → Ending ω × Tree) (s : Start) :
    Chore (Ending ω) := fun past t =>
  let (ending, t') := programs (past.filterMap Note.start?) s t
  ⟨ending, [.started s t ending.status?], t'⟩

end Chore

end Galley
