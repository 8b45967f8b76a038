import Galley.Path

/-!
# Concordances

A concordance says which source line each line of a woven document came from. It covers a run of
consecutive output lines: the first `offset` lines are not covered, and the line behind them is
the first of `lines`. A line that is not covered maps to itself.
-/

namespace Galley

/-- The line map from a woven document to its literate source. -/
structure Concordance where
  /-- The document that was written; the empty concordance has none. -/
  outputFile : Option Path := none
  /-- The source it was woven from. -/
  inputFile : Option Path := none
  /-- The source line of each covered output line, in order. -/
  lines : List Int := []
  /-- How many output lines come before the first covered one. -/
  offset : Int := 0
  deriving DecidableEq, Repr

namespace Concordance

/-- The concordance of a document that was not woven: it maps nothing. -/
def empty : Concordance := {}

/-- Whether a concordance maps nothing. -/
def isEmpty (c : Concordance) : Bool := c.outputFile.isNone || c.lines.isEmpty

/-- Whether an output line has a source line. -/
def covers (c : Concordance) (line : Int) : Bool :=
  !c.isEmpty && 0 ≤ line - 1 - c.offset && line - 1 - c.offset < c.lines.length

/-- The source line of an output line. -/
def sourceLine (c : Concordance) (line : Int) : Int :=
  if c.covers line then c.lines.getD (line - 1 - c.offset).toNat line else line

/-- Where the concordance for a document is kept. -/
def fileFor (target : Path) : Path := target.sibling "-concordance.tex"

end Concordance

end Galley
