import Galley.Text.Lines
import Galley.Text.Lower
import Galley.Text.Utf8
import Galley.Text.Word

/-!
# Magic comments

The header of a document, its leading blank lines and comment lines, may hold **directives** such
as

    % !TeX program = xelatex
    % !Rnw weave = knitr

A directive is known by its key, the scope and the variable in lower case with a space between
them. Of several directives with one key the first counts. Values are kept as they are written.
-/

namespace Galley

open Text

/-- The directives of a document by key, in the order of their first occurrence. -/
structure Directives where
  pairs : List (String × String) := []
  deriving DecidableEq, Repr

namespace Directives

/-- The key of a directive. -/
def key (scope variableName : String) : String := lower scope ++ " " ++ lower variableName

/-- The value of a directive. -/
def get? (d : Directives) (k : String) : Option String := d.pairs.lookup k

/-- Adds a directive unless its key is there already. -/
def insertIfNew (d : Directives) (k v : String) : Directives :=
  if d.get? k = none then ⟨d.pairs ++ [(k, v)]⟩ else d

/-- Reads a directive: percent signs, an exclamation mark, the scope, the variable, an equals
sign and the value, with blanks between them as one likes and at least one behind the scope. -/
def ofLine? (line : List Char) : Option (String × String) := do
  guard (line.head? = some '%')
  let rest ← dropLead? ['!'] (trimLeft (line.dropWhile (· = '%')))
  let rest := trimLeft rest
  let scope := rest.takeWhile isWordChar
  let behindScope := rest.dropWhile isWordChar
  guard (scope ≠ [] ∧ behindScope.head?.any isBlank)
  let rest := trimLeft behindScope
  let variableName := rest.takeWhile isNameChar
  guard (variableName ≠ [])
  let value ← dropLead? ['='] (trimLeft (rest.dropWhile isNameChar))
  return (key (String.ofList scope) (String.ofList variableName), String.ofList (trim value))

/-- Adds the directives of the header lines that lead a list of lines. -/
def addLines (d : Directives) : List (List Char) → Directives
  | [] => d
  | line :: rest =>
    match trim line with
    | [] => d.addLines rest
    | c :: r =>
      if c ≠ '%' then d
      else
        match ofLine? (c :: r) with
        | some (k, v) => (d.insertIfNew k v).addLines rest
        | none => d.addLines rest

/-- The directives of a document. -/
def ofText (text : List Char) : Directives := ({} : Directives).addLines (lines text)

/-- The directives of a document as it is stored. What is not UTF-8 in it does no harm. -/
def ofBytes (content : List UInt8) : Directives := ofText (unifyBreaks (utf8Lossy content))

end Directives

end Galley
