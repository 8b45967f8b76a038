import Galley.Concordance.Basic
import Galley.Crash
import Galley.Log.Bibtex
import Galley.Log.Tex
import Galley.Progress
import Galley.Program.Start
import Galley.Text.Latin1

/-!
# Diagnostics

After a compilation that failed, the log of TeX and the log of BibTeX are read. Entries of the
TeX log are expressed in lines of the literate source where the concordance knows them; those of
the BibTeX log point at bibliography files already. The diagnostics are the entries of the TeX
log followed by those of the BibTeX log.
-/

namespace Galley

open Text

/-- The log of TeX for a document. -/
def texLogPath (tex : Path) : Path := tex.sibling ".log"

/-- The log of BibTeX for a document. -/
def bibtexLogPath (tex : Path) : Path := tex.sibling ".blg"

/-- Why a log cannot be read. -/
inductive LogError where
  | file (e : FileError)
  | numeral (e : NumeralError)
  deriving DecidableEq, Repr

/-- The text of a log error. -/
def LogError.message : LogError → String
  | .file e => e.message
  | .numeral e => e.message

/-- The text of a log file. -/
def readLogText (t : Tree) (here p : Path) : Except LogError (List Char) := do
  let content ← (t.read here p).mapError .file
  return unifyBreaks (latin1 content)

/-- Reads a TeX log. Entries that belong to no open file belong to the document of its stem. -/
def TexLog.load (t : Tree) (here p : Path) : Except LogError (List Entry) := do
  let text ← readLogText t here p
  (TexLog.entries text p.parent (p.parent.resolveIn (p.stem ++ ".tex"))).mapError .numeral

/-- Reads a BibTeX log. -/
def BibtexLog.load (t : Tree) (here p : Path) : Except LogError (List Entry) := do
  let text ← readLogText t here p
  (BibtexLog.entries text p.parent).mapError .numeral

/-- The absolute path that `p` denotes from the directory `here`, as the file system finds it. -/
def Path.resolve (here p : Path) : Except Crash Path :=
  if p.hasNul then .error .embeddedNul else .ok (here.locate p)

/-- Whether a path is the document that a concordance is for, `here` being the current directory.
The paths are not looked at if the concordance maps nothing. -/
def Concordance.mapsFile (c : Concordance) (here path : Path) : Except Crash Bool := do
  match c.outputFile with
  | none => return false
  | some output =>
    if c.isEmpty then return false
    return (← here.resolve path) == (← here.resolve output)

/-- An entry of a TeX log in terms of the literate source, where the concordance knows it. -/
def Entry.remap (here : Path) (c : Concordance) (e : Entry) : Except Crash Entry := do
  match e.file with
  | none => return e
  | some file =>
    if (← c.mapsFile here file) && c.covers e.line then
      return { e with file := c.inputFile, line := c.sourceLine e.line }
    else return e

/-- A file as it is shown: seen from the directory of the document, if it lies in there. -/
def displayFile (base file : Path) : Path := (file.relativeTo? base.normalize).getD file

/-- The line that shows an entry. -/
def Entry.format (base : Path) (e : Entry) : Except Crash String :=
  match e.file, writeInt? e.line with
  | none, _ => .error .unknownSource
  | some _, none => .error .tooLongToWrite
  | some file, some line =>
    .ok (toString (displayFile base file) ++ " (line " ++ line ++ "): " ++ e.message)

/-- The diagnostics of a compilation. -/
structure Diagnostics where
  /-- The directory that files are shown from. -/
  base : Path
  /-- The entries of the TeX log, in terms of the literate source. -/
  tex : List Entry := []
  /-- The entries of the BibTeX log. -/
  bibtex : List Entry := []
  deriving DecidableEq, Repr

namespace Diagnostics

/-- Whether there are any. -/
def found (d : Diagnostics) : Bool := !(d.tex.isEmpty && d.bibtex.isEmpty)

/-- The lines that show the diagnostics. -/
def lines (d : Diagnostics) : Except Crash (List String) :=
  (d.tex ++ d.bibtex).mapM (Entry.format d.base)

/-- The entries of a log that may be missing; one that cannot be read has none, and that is
logged. -/
def readEntries (here p : Path) (load : Tree → Path → Path → Except LogError (List Entry)) :
    Chore (List Entry) := do
  let t ← Chore.tree
  if !t.contains here p then return []
  match load t here p with
  | .ok entries => return entries
  | .error e =>
    Chore.log .error ("Unable to parse " ++ p.name ++ ": " ++ e.message)
    return []

/-- Reads the diagnostics of a document from its logs. The log of BibTeX is not looked at if an
entry of the other one cannot be remapped. -/
def collect (here tex : Path) (c : Concordance) : Chore (Except Crash Diagnostics) := do
  let texEntries ← readEntries here (texLogPath tex) TexLog.load
  match texEntries.mapM (Entry.remap here c) with
  | .error crash => return .error crash
  | .ok texEntries =>
    let bibtexEntries ← readEntries here (bibtexLogPath tex) BibtexLog.load
    return .ok ⟨tex.parent, texEntries, bibtexEntries⟩

/-- The error lines that report entries, and an empty line behind them. Ends at an entry that
cannot be shown. -/
def entryLines (base : Path) : List Entry → List ProgressLine × Except Crash Unit
  | [] => ([.plain "\n"], .ok ())
  | e :: rest =>
    match e.format base with
    | .error crash => ([], .error crash)
    | .ok line =>
      let (shown, result) := entryLines base rest
      (.error (line ++ "\n") :: shown, result)

/-- The report of a group of entries below its title; nothing is reported of an empty group. -/
def groupLines (base : Path) (title : String) (entries : List Entry) :
    List ProgressLine × Except Crash Unit :=
  if entries = [] then ([], .ok ())
  else
    let (shown, result) := entryLines base entries
    (.plain title :: shown, result)

/-- What the report of the diagnostics shows, and the error that cuts it short, if any. -/
def report (d : Diagnostics) : List ProgressLine × Except Crash Unit :=
  match groupLines d.base "\nLaTeX errors:\n" d.tex with
  | (shown, .error crash) => (shown, .error crash)
  | (shown, .ok ()) =>
    let (more, result) := groupLines d.base "BibTeX errors:\n" d.bibtex
    (shown ++ more, result)

end Diagnostics

/-- Removes a log of an earlier run, if there is one. -/
def removeStaleLog (here p : Path) : Chore Unit := do
  let t ← Chore.tree
  match t.remove here p with
  | .ok t' =>
    Chore.setTree t'
    Chore.log .debug ("Removed stale log: " ++ p.name)
  | .error ⟨.notFound, _⟩ => return ()
  | .error e => Chore.log .error ("Unable to remove " ++ toString p ++ ": " ++ e.message)

/-- Removes the logs of an earlier run, so that a run is never judged by them. -/
def removeStaleLogs (here tex : Path) : Chore Unit := do
  removeStaleLog here (texLogPath tex)
  removeStaleLog here (bibtexLogPath tex)

end Galley
