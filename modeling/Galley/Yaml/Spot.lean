import Galley.Text.Numeral

/-!
# Places in a YAML document

The layout of a YAML document carries its structure, so every character is read together with its
place: how many characters stand before it, on which line, and in which column. Behind the last
character stands an end mark, so that the end has a place of its own.

A document is read as `Spot`s from left to right. A function that reads a part of it gives what it
read and the spots behind.
-/

namespace Galley.Yaml

/-- Why a document cannot be read. -/
inductive ReadError where
  /-- A character that no document may hold. -/
  | character
  /-- Something that is no token. -/
  | token (message : String)
  /-- A token at a place where it cannot stand. -/
  | structure (message : String)
  /-- A second document behind the first one. -/
  | secondDocument
  /-- A scalar or a mapping that has no value. -/
  | value (message : String)
  /-- A numeral without digits, or with too many of them. -/
  | numeral (message : String)
  deriving DecidableEq, Repr

/-- The text of an error. -/
def ReadError.message : ReadError → String
  | .character => "special characters are not allowed"
  | .token message => message
  | .structure message => message
  | .secondDocument => "expected a single document in the stream"
  | .value message => message
  | .numeral message => message

/-- A character and its place. -/
structure Spot where
  char : Char
  index : Nat
  line : Nat
  column : Nat
  deriving DecidableEq, Repr

/-- The end mark. -/
def endMark : Char := '\x00'

/-- The mark that may stand in front of a text to tell its byte order. -/
def byteOrderMark : Char := '\ufeff'

/-- Whether a character breaks a line. -/
def isBreak (c : Char) : Bool := c == '\n' || c == '\u0085' || c == '\u2028' || c == '\u2029'

/-- What a line break is read as: the line and paragraph separators as themselves. -/
def breakText (c : Char) : Char := if c == '\u0085' then '\n' else c

/-- Whether a character separates tokens. -/
def isGap (c : Char) : Bool := c == endMark || c == ' ' || c == '\t' || isBreak c

/-- Whether a character has its meaning in flow collections only. -/
def isFlowMark (c : Char) : Bool := c == ',' || c == '[' || c == ']' || c == '\x7b' || c == '\x7d'

/-- Whether a document may hold a character. -/
def isAllowed (c : Char) : Bool :=
  let n := c.toNat
  n == 9 || n == 10 || n == 13 || (0x20 ≤ n && n ≤ 0x7E) || n == 0x85 ||
    (0xA0 ≤ n && n ≤ 0xFFFD) || 0x10000 ≤ n

/-- The characters with their places, and the end mark behind them. A byte order mark takes no
column. -/
def spotsFrom (index line column : Nat) : List Char → List Spot
  | [] => [⟨endMark, index, line, column⟩]
  | c :: r =>
    ⟨c, index, line, column⟩ ::
      (if isBreak c then spotsFrom (index + 1) (line + 1) 0 r
      else spotsFrom (index + 1) line (if c = byteOrderMark then column else column + 1) r)

/-- The spots of a text. -/
def spots (text : List Char) : List Spot := spotsFrom 0 0 0 text

/-- The next character; the end mark behind the end. -/
def peek : List Spot → Char
  | [] => endMark
  | p :: _ => p.char

/-- The column of what is next. -/
def column : List Spot → Nat
  | [] => 0
  | p :: _ => p.column

/-- Whether the next three characters are `mark` and separate something from what follows. -/
def isMark (mark : Char) (s : List Spot) : Bool :=
  (s.take 3).map (·.char) == [mark, mark, mark] && isGap (peek (s.drop 3))

/-- Whether a mark between documents is next. -/
def atDocumentMark (s : List Spot) : Bool := isMark '-' s || isMark '.' s

/-- Passes over spaces. -/
def skipSpaces (s : List Spot) : List Spot := s.dropWhile (·.char == ' ')

/-- Passes over the rest of the line. -/
def skipLine (s : List Spot) : List Spot :=
  s.dropWhile fun p => p.char != endMark && !isBreak p.char

/-- A line break that is next, as it is read, and what is behind it. -/
def takeBreak : List Spot → List Char × List Spot
  | [] => ([], [])
  | p :: r => if isBreak p.char then ([breakText p.char], r) else ([], p :: r)

/-- What a text has in place of a line break and the empty lines behind it: a single break becomes
a space, and the break before empty lines is dropped. -/
def fold (break? breaks : List Char) : List Char :=
  if break? ≠ ['\n'] then break? ++ breaks else if breaks = [] then [' '] else breaks

end Galley.Yaml
