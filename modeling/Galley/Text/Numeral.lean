import Galley.Text.Blank
import Galley.Text.Digit
import Galley.Text.Quoted

/-!
# Numerals

`readInt` reads a whole number the way the files and variables of a document write it: decimal
digits of any script, single underscores between digits, a sign, and blanks around the whole.

Numerals of more than `digitLimit` digits are refused, leading zeros included, before anything
behind the digits is looked at.
-/

namespace Galley.Text

/-- The largest number of digits that is read. -/
def digitLimit : Nat := 4300

/-- Why a text is no readable number. -/
inductive NumeralError where
  /-- The text is not a numeral. -/
  | malformed (text : String)
  /-- The numeral has more than `digitLimit` digits. -/
  | tooLong (digits : Nat)
  deriving DecidableEq, Repr

/-- The text of a numeral error. A malformed numeral is quoted, up to 200 characters of the
quotation. -/
def NumeralError.message : NumeralError → String
  | .malformed text =>
    "invalid literal for int() with base 10: " ++ String.ofList ((quoted text.toList).take 200)
  | .tooLong digits =>
    "Exceeds the limit (4300 digits) for integer string conversion: value has " ++
      toString digits ++ " digits; use sys.set_int_max_str_digits() to increase the limit"

/-- The number with its sign, if it has no more digits than are written. -/
def writeInt? (n : Int) : Option String :=
  if n.natAbs < Nat.pow 10 digitLimit then some (toString n) else none

/-- What is reported when a number has too many digits to be written. -/
def tooLongToWriteMessage : String :=
  "Exceeds the limit (4300 digits) for integer string conversion; " ++
    "use sys.set_int_max_str_digits() to increase the limit"

/-- The number that a non-empty run of digits denotes, within the limit on its length. -/
def readDigits (ds : List Char) : Except NumeralError Nat :=
  if ds.length ≤ digitLimit then .ok (digitsValue ds) else .error (.tooLong ds.length)

/-- The leading digits of a numeral and what follows them, single underscores between digits
passed over. Fails when an underscore does not stand between two digits; `afterDigit` tells
whether the character before is a digit. -/
def scanDigits (afterDigit : Bool) : List Char → Option (List Char × List Char)
  | [] => some ([], [])
  | c :: r =>
    if isDigit c then (scanDigits true r).map fun (ds, rest) => (c :: ds, rest)
    else if c = '_' then
      if afterDigit && r.head?.any isDigit then scanDigits false r else none
    else some ([], c :: r)

/-- The blanks that may stand around a numeral: the four ASCII separators are not among them. -/
def padsNumeral (c : Char) : Bool := isBlank c && !(28 ≤ c.toNat && c.toNat ≤ 31)

/-- The sign of a numeral, as whether it is negative, and what follows it. -/
def cutSign : List Char → Bool × List Char
  | '-' :: r => (true, r)
  | '+' :: r => (false, r)
  | r => (false, r)

/-- Reads a whole number. -/
def readInt (s : List Char) : Except NumeralError Int :=
  let (negative, body) := cutSign (s.dropWhile padsNumeral)
  match scanDigits false body with
  | none => .error (.malformed (String.ofList s))
  | some (ds, rest) =>
    -- the length counts before what stands behind the digits does
    if digitLimit < ds.length then .error (.tooLong ds.length)
    else if ds.isEmpty || !rest.all padsNumeral then .error (.malformed (String.ofList s))
    else .ok (if negative then -(digitsValue ds : Int) else digitsValue ds)

end Galley.Text
