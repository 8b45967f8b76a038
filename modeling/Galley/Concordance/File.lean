import Galley.Concordance.Reader
import Galley.Text.Lines
import Galley.Text.Utf8
import Galley.Tree.Files

/-!
# Concordance files

The concordance of a document stands next to it. A file that is not there, or that holds no
entry, gives the empty concordance; of several entries the first is the one of the document.
-/

namespace Galley

open Text

/-- Why a concordance file cannot be used. -/
inductive ConcordanceFileError where
  | file (e : FileError)
  | encoding (e : Utf8Error)
  | entry (e : ConcordanceError)
  deriving DecidableEq, Repr

/-- The text of the error. -/
def ConcordanceFileError.message : ConcordanceFileError → String
  | .file e => e.message
  | .encoding e => e.message
  | .entry e => e.message

/-- Reads a concordance file. -/
def Concordance.load (t : Tree) (here p : Path) : Except ConcordanceFileError Concordance := do
  if !t.contains here p then return .empty
  let content ← (t.read here p).mapError .file
  let text ← (utf8 content).mapError .encoding
  let all ← (Concordance.readAll p.parent (unifyBreaks text)).mapError .entry
  return all.headD .empty

end Galley
