import Galley.Text.Trim

/-!
# Lines

`lines` cuts a text at its line breaks, a carriage return with its line feed being one break; a
break at the very end starts no further line. `unifyBreaks` is what reading a text file does
first: both spellings of a line end that use a carriage return become a plain line feed.
-/

namespace Galley.Text

/-- The lines of a text, without their breaks. -/
def lines : List Char → List (List Char)
  | [] => []
  | '\r' :: '\n' :: r => [] :: lines r
  | c :: r => if isLineBreak c then [] :: lines r else push c (lines r)

/-- The text with every carriage return, alone or before a line feed, as a line feed. -/
def unifyBreaks : List Char → List Char
  | [] => []
  | '\r' :: '\n' :: r => '\n' :: unifyBreaks r
  | '\r' :: r => '\n' :: unifyBreaks r
  | c :: r => c :: unifyBreaks r

end Galley.Text
