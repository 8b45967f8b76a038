import Galley.Log.Entry
import Galley.Text.Lines
import Galley.Text.Numeral

/-!
# Entries of a BibTeX log

BibTeX writes an error as `message---line N of file F`, the message sometimes on the line before,
and a warning as `Warning--message` with `--line N of file F` on the next line. Warnings without
a location make no entry.
-/

namespace Galley.BibtexLog

open Text

/-- A line number, as written, and a file name. -/
structure Location where
  line : List Char
  file : List Char
  deriving DecidableEq, Repr

/-- Reads `lead` followed by `line N of file F`. -/
def location? (lead : List Char) (s : List Char) : Option Location := do
  let rest ← dropLead? (lead ++ "line ".toList) s
  let line := rest.takeWhile isDigit
  guard (line ≠ [])
  let file ← dropLead? " of file ".toList (rest.dropWhile isDigit)
  guard (file ≠ [])
  return ⟨line, file⟩

/-- The location of an error and the text in front of it; of several locations the last counts. -/
def errorPlace? : List Char → Option (List Char × Location)
  | [] => none
  | c :: r =>
    match errorPlace? r with
    | some (before, place) => some (c :: before, place)
    | none => (location? ['-', '-', '-'] (c :: r)).map fun place => ([], place)

/-- The message of a warning. -/
def warning? (s : List Char) : Option (List Char) := do
  let message ← dropLead? "Warning--".toList s
  guard (message ≠ [])
  return message

/-- An entry for a place named in the log. -/
def entryAt (baseDir : Path) (kind : EntryKind) (place : Location) (message : List Char) :
    Except NumeralError Entry := do
  let n ← readDigits place.line
  return ⟨kind, some (baseDir.resolveIn (String.ofList (trim place.file))), n,
    String.ofList message⟩

/-- The message of an error: the text in front of its place, or else the line before. -/
def errorMessage (previous : List Char) (before : List Char) : List Char :=
  if (trim before).isEmpty then trim previous else trim before

/-- The entry of a line, if it makes one, given the lines before and behind it. -/
def entryOfLine (baseDir : Path) (previous line : List Char) (next : Option (List Char)) :
    Except NumeralError (Option Entry) :=
  match errorPlace? line with
  | some (before, place) => some <$> entryAt baseDir .error place (errorMessage previous before)
  | none =>
    match warning? line, next.bind (location? ['-', '-']) with
    | some message, some place => some <$> entryAt baseDir .warning place (trim message)
    | _, _ => return none

/-- The entries of the lines of a log, given the line before them. -/
def entriesOfLines (baseDir : Path) (previous : List Char) :
    List (List Char) → Except NumeralError (List Entry)
  | [] => return []
  | line :: rest => do
    let entry ← entryOfLine baseDir previous line rest.head?
    let entries ← entriesOfLines baseDir line rest
    return entry.toList ++ entries

/-- The entries of a BibTeX log; file names are read from `baseDir`. -/
def entries (text : List Char) (baseDir : Path) : Except NumeralError (List Entry) :=
  entriesOfLines baseDir [] (lines text)

end Galley.BibtexLog
