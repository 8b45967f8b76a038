/-!
# Progress lines

While a compilation runs, pieces of text are shown to the user, some of them as errors. They are
shown as they are: a piece that is a whole line has its line feed in it.

They are shown on a stream, which records them. A stream may have a sink, which is given each
piece when it arrives.
-/

namespace Galley

/-- A piece of text that is shown. -/
structure ProgressLine where
  text : String
  isError : Bool
  deriving DecidableEq, Repr

namespace ProgressLine

/-- Text that is shown plainly. -/
def plain (text : String) : ProgressLine := ⟨text, false⟩

/-- Text that is shown as an error. -/
def error (text : String) : ProgressLine := ⟨text, true⟩

end ProgressLine

/-- All that was shown, in one text. -/
def progressText (lines : List ProgressLine) : String := String.join (lines.map (·.text))

/-- The texts that were shown as errors. -/
def progressErrors (lines : List ProgressLine) : List String :=
  (lines.filter (·.isError)).map (·.text)

/-- A stream of progress. The sink, if there is one, works on a state of its own. -/
structure ProgressStream (σ : Type) where
  /-- What was shown so far. -/
  lines : List ProgressLine := []
  sink : Option (ProgressLine → σ → σ) := none
  /-- What the sink has made of the lines. -/
  sunk : σ

namespace ProgressStream

variable {σ : Type}

/-- Shows a piece of text on a stream. -/
def append (s : ProgressStream σ) (line : ProgressLine) : ProgressStream σ :=
  { s with
    lines := s.lines ++ [line]
    sunk :=
      match s.sink with
      | some sink => sink line s.sunk
      | none => s.sunk }

/-- All that was shown on a stream, in one text. -/
def text (s : ProgressStream σ) : String := progressText s.lines

/-- The texts that were shown on a stream as errors. -/
def errors (s : ProgressStream σ) : List String := progressErrors s.lines

/-- A stream that is shown pieces of text, one after the other. -/
def appendAll (s : ProgressStream σ) (lines : List ProgressLine) : ProgressStream σ :=
  lines.foldl append s

end ProgressStream

end Galley
