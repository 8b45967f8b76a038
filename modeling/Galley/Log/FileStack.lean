import Galley.Path
import Galley.Text.Word

/-!
# The files TeX has open

TeX prints `(name` when it opens a file and `)` when it closes one. A `FileStack` follows these
marks through the lines of a log. Parentheses that open no file are on the stack too, so that
their closing mark closes nothing else.
-/

namespace Galley

open Text

/-- The parentheses that are open, innermost first, each with the file it opened if it did. -/
structure FileStack where
  /-- The directory that relative names are read from. -/
  baseDir : Path
  /-- The file that is open while no parenthesis has opened one. -/
  mainFile : Path
  marks : List (Option Path) := []

namespace FileStack

/-- The file that TeX reads at this point. -/
def current (s : FileStack) : Path := (s.marks.findSome? id).getD s.mainFile

/-- The longest beginning of a text that ends in an extension, a dot with word characters, and
with which the text before the dot takes the dots of all earlier extensions. -/
def cutExtension? : List Char → Option (List Char)
  | [] => none
  | c :: r =>
    match cutExtension? r with
    | some t => some (c :: t)
    | none =>
      if c = '.' ∧ r.takeWhile isWordChar ≠ [] then some ('.' :: r.takeWhile isWordChar) else none

/-- The file name right behind an opening parenthesis, if there is one: at least one character,
neither blank nor a parenthesis, and an extension. -/
def fileName? (s : List Char) : Option (List Char) :=
  match s.takeWhile fun c => c ≠ '(' && c ≠ ')' && !isBlank c with
  | [] => none
  | c :: r => (cutExtension? r).map (c :: ·)

/-- The marks after the characters of a line. A closing parenthesis without partner is passed
over. -/
def marksAfter (baseDir : Path) (marks : List (Option Path)) : List Char → List (Option Path)
  | [] => marks
  | c :: r =>
    if c = '(' then
      let opened := (fileName? r).map fun n => baseDir.resolveIn (String.ofList n)
      marksAfter baseDir (opened :: marks) r
    else if c = ')' then marksAfter baseDir marks.tail r
    else marksAfter baseDir marks r

/-- The stack after one line of the log. -/
def feed (s : FileStack) (line : List Char) : FileStack :=
  { s with marks := marksAfter s.baseDir s.marks line }

end FileStack

end Galley
