/-!
# Log messages

A message has a level, and the levels are ordered from the least to the most serious, success
being a little more than information. Messages of the compilation and of weaving start with the
name of that part in brackets. A **verbatim** message goes into a log as it is, without time and
level in front.
-/

namespace Galley

/-- How serious a message is. -/
inductive Level where
  | debug
  | info
  | success
  | warning
  | error
  deriving DecidableEq, Repr

/-- The rank of a level. -/
def Level.rank : Level → Nat
  | .debug => 10
  | .info => 20
  | .success => 25
  | .warning => 30
  | .error => 40

/-- The name of a level. -/
def Level.text : Level → String
  | .debug => "DEBUG"
  | .info => "INFO"
  | .success => "SUCCESS"
  | .warning => "WARNING"
  | .error => "ERROR"

/-- A message in a log. -/
structure Message where
  level : Level
  text : String
  verbatim : Bool := false
  deriving DecidableEq, Repr

namespace Message

/-- A message of the compilation. -/
def render (level : Level) (text : String) : Message := ⟨level, "[render] " ++ text, false⟩

/-- A message of weaving. -/
def weave (level : Level) (text : String) : Message := ⟨level, "[weave] " ++ text, false⟩

/-- A section of program output, with its title between two rules. -/
def outputSection (title body : String) : Message :=
  let rule := String.ofList (List.replicate 80 '=')
  ⟨.debug, "\n" ++ rule ++ "\n" ++ title ++ ":\n" ++ rule ++ "\n" ++ body ++ "\n", true⟩

end Message

end Galley
