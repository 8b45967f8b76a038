import Galley.Path

/-!
# Log entries

A log entry is one diagnostic read from a log: what kind it is, the file and line that it points
at, and its message.
-/

namespace Galley

/-- The kind of a diagnostic. -/
inductive EntryKind where
  | error
  | warning
  /-- A line of the page that is too full or not full enough. -/
  | badBox
  deriving DecidableEq, Repr

/-- One diagnostic. -/
structure Entry where
  kind : EntryKind
  /-- The file it points at; there is none when the source of a woven line is not known. -/
  file : Option Path
  line : Int
  message : String
  deriving DecidableEq, Repr

end Galley
