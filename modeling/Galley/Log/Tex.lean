import Galley.Log.Entry
import Galley.Log.FileStack
import Galley.Log.TexLine
import Galley.Text.Lines
import Galley.Text.Numeral

/-!
# Entries of a TeX log

`TexLog.entries` reads the entries of a log in order. An error that starts with `!` takes its
line from the next `l.N` within `placeLookahead` lines and is dropped without one. A warning is
continued on the lines behind it until it ends with a full stop, on at most `continuationLimit`
of them, and is dropped if no input line is named at its end. Errors that name their file belong
to that file, all other entries to the file that is open.
-/

namespace Galley.TexLog

open Text

/-- How many lines behind an error are searched for its place. -/
def placeLookahead : Nat := 10

/-- How many lines a warning may be continued on. -/
def continuationLimit : Nat := 4

/-- Trims a message and takes off its full stop; an ellipsis stays. -/
def cleanMessage (m : List Char) : List Char :=
  match (trim m).reverse with
  | '.' :: '.' :: r => ('.' :: '.' :: r).reverse
  | '.' :: r => r.reverse
  | r => r.reverse

/-- Whether a text ends with a full stop, blanks behind it aside. -/
def endsWithStop (s : List Char) : Bool := (trimRight s).getLast? == some '.'

/-- A warning with its continuation lines, joined by single spaces. -/
def continued : Nat → List Char → List (List Char) → List Char
  | limit + 1, text, line :: rest =>
    if endsWithStop text || (trim line).isEmpty then text
    else continued limit (trimRight text ++ ' ' :: trim line) rest
  | _, text, _ => text

/-- The entry of one line, if it makes one, given the open files and the lines behind it. -/
def entryOfLine (files : FileStack) (line : TexLine) (behind : List (List Char)) :
    Except NumeralError (Option Entry) :=
  match line with
  | .fileError file number message => do
    let n ← readDigits number
    return some ⟨.error, some (files.baseDir.resolveIn (String.ofList file)), n,
      String.ofList (cleanMessage message)⟩
  | .error message =>
    match (behind.take placeLookahead).findSome? TexLine.errorPlace? with
    | none => return none
    | some number => do
      let n ← readDigits number
      return some ⟨.error, some files.current, n, String.ofList (cleanMessage message)⟩
  | .warning message =>
    match TexLine.inputLine? (continued continuationLimit message behind) with
    | none => return none
    | some (text, number) => do
      let n ← readDigits number
      return some ⟨.warning, some files.current, n, String.ofList (cleanMessage text)⟩
  | .badBox message number => do
    let n ← readDigits number
    return some ⟨.badBox, some files.current, n, String.ofList (trim message)⟩
  | .givenUp => return none
  | .plain => return none

/-- The open files after a line: only plain lines tell about files. -/
def filesAfter (files : FileStack) (line : List Char) : FileStack :=
  match TexLine.ofChars line with
  | .plain => files.feed line
  | _ => files

/-- The entries of the lines of a log, read with the files that are open before them. -/
def entriesOfLines (files : FileStack) : List (List Char) → Except NumeralError (List Entry)
  | [] => return []
  | line :: rest => do
    let entry ← entryOfLine files (TexLine.ofChars line) rest
    let entries ← entriesOfLines (filesAfter files line) rest
    return entry.toList ++ entries

/-- The entries of a log. Relative names are read from `baseDir`; while no file is open, entries
belong to `mainFile`. -/
def entries (text : List Char) (baseDir mainFile : Path) : Except NumeralError (List Entry) :=
  entriesOfLines { baseDir, mainFile } (lines text)

end Galley.TexLog
