import Galley.Text.Digit
import Galley.Text.Trim
import Galley.Text.Word

/-!
# Lines of a TeX log

Each line of a log is of one of six kinds, `TexLine`, told apart by how it starts:

* `file.tex:5: Undefined control sequence.` is an error with its own location;
* `! Undefined control sequence.` is an error whose location stands on a later line, `l.5 ...`;
* `!  ==> Fatal error occurred` only says that TeX has given up;
* `LaTeX Warning: ...`, and the same of a package or a class, is a warning;
* `Overfull \hbox (3.2pt too wide) in paragraph at lines 3--4` is a bad box;
* any other line tells which files TeX opens and closes.

The kinds are tried in this order, and the first that fits decides.
-/

namespace Galley

open Text

/-- A line of a TeX log by its kind. Numbers are kept as they are written. -/
inductive TexLine where
  | fileError (file : List Char) (line : List Char) (message : List Char)
  | error (message : List Char)
  | givenUp
  | warning (message : List Char)
  | badBox (message : List Char) (line : List Char)
  | plain
  deriving DecidableEq, Repr

namespace TexLine

/-! ### Errors -/

/-- Whether a text is a file name that an error line can start with: something, a dot and a
non-empty extension of word characters, without parentheses and not starting with a blank. -/
def isFileName (s : List Char) : Bool :=
  match cutLast? '.' s with
  | some (c :: _, w :: ws) =>
    !isBlank c && !s.contains '(' && !s.contains ')' && (w :: ws).all isWordChar
  | _ => false

/-- Reads `file:line: message`. -/
def fileError? (s : List Char) : Option TexLine := do
  let (file, rest) ← cutFirst? ':' s
  guard (isFileName file)
  let line := rest.takeWhile isDigit
  guard (line ≠ [])
  let message ← dropLead? [':', ' '] (rest.dropWhile isDigit)
  guard (message ≠ [])
  return .fileError file line message

/-- Reads `! message`. -/
def error? (s : List Char) : Option TexLine := do
  let message ← dropLead? ['!', ' '] s
  guard (message ≠ [])
  return if (dropLead? " ==>".toList message).isSome then .givenUp else .error message

/-- The number on a line `l.N ...`, which shows where the error before it occurred. -/
def errorPlace? (s : List Char) : Option (List Char) := do
  let rest ← dropLead? ['l', '.'] s
  let line := rest.takeWhile isDigit
  guard (line ≠ [])
  return line

/-! ### Warnings -/

/-- Drops the word for who warns: LaTeX itself, or a package or class with its name. -/
def dropSource? (s : List Char) : Option (List Char) :=
  match dropLead? "LaTeX".toList s with
  | some rest => some rest
  | none => do
    let rest ← (dropLead? "Package ".toList s).or (dropLead? "Class ".toList s)
    guard (rest.takeWhile isNameChar ≠ [])
    return rest.dropWhile isNameChar

/-- Reads `LaTeX Warning: message`. -/
def warning? (s : List Char) : Option TexLine := do
  let rest ← dropSource? s
  let message ← dropLead? " Warning: ".toList rest
  guard (message ≠ [])
  return .warning message

/-- Cuts a warning that ends in `on input line N`, with or without a full stop, into the text in
front, the blanks before these words dropped, and the number. -/
def inputLine? (s : List Char) : Option (List Char × List Char) := do
  -- the end decides, so the text is read backwards
  let r := match s.reverse with
    | '.' :: r => r
    | r => r
  let line := r.takeWhile isDigit
  guard (line ≠ [])
  let before ← dropLead? "on input line ".toList.reverse (r.dropWhile isDigit)
  return ((before.dropWhile isBlank).reverse, line.reverse)

/-! ### Bad boxes -/

/-- Drops `in paragraph ` or `in alignment `, if the text starts with one of them. -/
def dropBoxContext (s : List Char) : List Char :=
  ((dropLead? "in paragraph ".toList s).or (dropLead? "in alignment ".toList s)).getD s

/-- The number in ` at line N` or ` at lines N`, a context allowed in between. -/
def boxPlace? (s : List Char) : Option (List Char) := do
  let rest ← dropLead? [' '] s
  let rest ← dropLead? "at line".toList (dropBoxContext rest)
  let rest ← dropLead? [' '] ((dropLead? ['s'] rest).getD rest)
  let line := rest.takeWhile isDigit
  guard (line ≠ [])
  return line

/-- The text in front of the first place that is named, and the number there. -/
def cutBoxPlace? : List Char → Option (List Char × List Char)
  | [] => none
  | c :: r =>
    match boxPlace? (c :: r) with
    | some line => some ([], line)
    | none => (cutBoxPlace? r).map fun (before, line) => (c :: before, line)

/-- The ways a report of a bad box starts. -/
def boxLeads : List (List Char) :=
  ["Overfull \\hbox ".toList, "Overfull \\vbox ".toList, "Underfull \\hbox ".toList,
   "Underfull \\vbox ".toList]

/-- Reads the report of a bad box. -/
def badBox? (s : List Char) : Option TexLine :=
  boxLeads.findSome? fun lead => do
    let rest ← dropLead? lead s
    let (before, line) ← cutBoxPlace? rest
    return .badBox (lead ++ before) line

/-! ### All kinds -/

/-- The kind of a line. -/
def ofChars (s : List Char) : TexLine :=
  ((fileError? s).or ((error? s).or ((warning? s).or (badBox? s)))).getD .plain

end TexLine

end Galley
