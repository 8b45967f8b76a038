/-!
# Output of the toolchain

What one or more programs left: the status of the last one, and what all of them wrote, in order.
-/

namespace Galley

/-- What programs of the toolchain left. -/
structure ToolOutput where
  status : Int := 0
  output : String := ""
  errors : String := ""
  /-- The commands that were started, in order. -/
  commands : List (List String) := []
  deriving DecidableEq, Repr

namespace ToolOutput

/-- Two texts with a line feed between them, unless one of them is empty. -/
def joinLines (a b : String) : String := "\n".intercalate ([a, b].filter (· != ""))

/-- The output of two steps, the second step giving the status. -/
def extend (first second : ToolOutput) : ToolOutput where
  status := second.status
  output := joinLines first.output second.output
  errors := joinLines first.errors second.errors
  commands := first.commands ++ second.commands

end ToolOutput

end Galley
