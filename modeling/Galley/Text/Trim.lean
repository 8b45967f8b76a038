import Galley.Text.Blank

/-!
# Trimming and splitting

Text is worked on as a list of characters. `trim` takes the blanks off both ends, `words` gives
the maximal runs of characters that are not blank, and `fields` cuts at every occurrence of one
character.
-/

namespace Galley.Text

/-- The text without the blanks in front. -/
def trimLeft (s : List Char) : List Char := s.dropWhile isBlank

/-- The text without the blanks at the end. -/
def trimRight (s : List Char) : List Char := (s.reverse.dropWhile isBlank).reverse

/-- The text without the blanks at both ends. -/
def trim (s : List Char) : List Char := trimRight (trimLeft s)

/-- Puts a character in front of the first piece, starting one if there is none. -/
def push (c : Char) : List (List Char) → List (List Char)
  | [] => [[c]]
  | w :: ws => (c :: w) :: ws

/-- The maximal runs of characters that are not blank, in order. -/
def words : List Char → List (List Char)
  | [] => []
  | c :: r =>
    if isBlank c then words r
    else if r.head?.all isBlank then [c] :: words r
    else push c (words r)

/-- The pieces between the occurrences of `sep`; there is one more piece than occurrences. -/
def fields (sep : Char) : List Char → List (List Char)
  | [] => [[]]
  | c :: r => if c == sep then [] :: fields sep r else push c (fields sep r)

/-- The pieces put together again, with `sep` between them. -/
def joinWith (sep : List Char) : List (List Char) → List Char
  | [] => []
  | [w] => w
  | w :: ws => w ++ sep ++ joinWith sep ws

/-- The rest of a text behind `lead`, if it starts with it. -/
def dropLead? : List Char → List Char → Option (List Char)
  | [], s => some s
  | _ :: _, [] => none
  | p :: ps, c :: s => if p = c then dropLead? ps s else none

/-- Whether `part` occurs in the text. -/
def contains (part : List Char) : List Char → Bool
  | [] => part.isEmpty
  | c :: r => (dropLead? part (c :: r)).isSome || contains part r

/-- The text before and the text behind the last occurrence of a character. -/
def cutLast? (sep : Char) : List Char → Option (List Char × List Char)
  | [] => none
  | c :: r =>
    match cutLast? sep r with
    | some (before, after) => some (c :: before, after)
    | none => if c = sep then some ([], r) else none

/-- The text before and the text behind the first occurrence of a character. -/
def cutFirst? (sep : Char) : List Char → Option (List Char × List Char)
  | [] => none
  | c :: r =>
    if c = sep then some ([], r)
    else (cutFirst? sep r).map fun (before, after) => (c :: before, after)

end Galley.Text
