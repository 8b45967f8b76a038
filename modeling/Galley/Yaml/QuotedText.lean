import Galley.Yaml.Spot

/-!
# Quoted scalars

A scalar in single quotes has one escape, the doubled quote. A scalar in double quotes has escapes
that start with a backslash: for control characters, for any character by its number, and for a
line break, which is then left out. In both, line breaks are folded together with the blanks
around them.
-/

namespace Galley.Yaml

open Text

/-- The escapes for single characters in double quotes. -/
def shortEscapes : List (Char × Char) :=
  [('0', '\x00'), ('a', '\x07'), ('b', '\x08'), ('t', '\t'), ('\t', '\t'), ('n', '\n'),
    ('v', '\x0b'), ('f', '\x0c'), ('r', '\r'), ('e', '\x1b'), (' ', ' '), ('"', '"'),
    ('\\', '\\'), ('/', '/'), ('N', '\u0085'), ('_', '\u00a0'), ('L', '\u2028'), ('P', '\u2029')]

/-- How many hexadecimal digits follow the escapes that give a number. -/
def escapeWidths : List (Char × Nat) := [('x', 2), ('u', 4), ('U', 8)]

/-- The value of a hexadecimal digit. -/
def hexValue? (c : Char) : Option Nat :=
  let n := c.toNat
  if 48 ≤ n ∧ n ≤ 57 then some (n - 48)
  else if 65 ≤ n ∧ n ≤ 70 then some (n - 55)
  else if 97 ≤ n ∧ n ≤ 102 then some (n - 87)
  else none

/-- The value of hexadecimal digits. -/
def hexNumber? (ds : List Char) : Option Nat :=
  ds.foldl (fun n? c => do return 16 * (← n?) + (← hexValue? c)) (some 0)

/-- Whether a character is a blank in a quoted scalar. -/
def isQuotedBlank (c : Char) : Bool := c == ' ' || c == '\t'

/-- The empty lines behind a line break in a quoted scalar; `fresh` tells that a line starts. -/
def quotedBreaks (fresh : Bool) : List Spot → Except ReadError (List Char × List Spot)
  | [] => .ok ([], [])
  | p :: r =>
    if fresh && atDocumentMark (p :: r) then .error (.token "found unexpected document separator")
    else if isQuotedBlank p.char then quotedBreaks false r
    else if isBreak p.char then do
      let (breaks, rest) ← quotedBreaks true r
      return (breakText p.char :: breaks, rest)
    else .ok ([], p :: r)

/-- Reads blanks and line breaks in a quoted scalar, and gives what it has for them. -/
def quotedGap (s : List Spot) : Except ReadError (List Char × List Spot) :=
  let blanks := (s.takeWhile (isQuotedBlank ·.char)).map (·.char)
  match takeBreak (s.dropWhile (isQuotedBlank ·.char)) with
  | ([], rest) => .ok (blanks, rest)
  | (break?, rest) => do
    let (breaks, rest) ← quotedBreaks true rest
    return (fold break? breaks, rest)

/-- Reads an escape behind its backslash. -/
def escape (s : List Spot) : Except ReadError (List Char × List Spot) :=
  let c := peek s
  match shortEscapes.lookup c, escapeWidths.lookup c with
  | some meaning, _ => .ok ([meaning], s.drop 1)
  | none, some width =>
    match hexNumber? (((s.drop 1).take width).map (·.char)) with
    | none => .error (.token "expected escape sequence of hexadecimal numbers")
    | some n =>
      if n < 0x110000 then .ok ([Char.ofNat n], s.drop (1 + width))
      else .error (.token "found an escape sequence beyond the last character")
  | none, none =>
    match takeBreak s with
    | ([], _) => .error (.token "found unknown escape character")
    | (_, rest) => quotedBreaks true rest

/-- Reads a quoted scalar behind its opening quote, in at most `steps` steps. -/
def quotedTextIn (double : Bool) : Nat → List Spot → Except ReadError (List Char × List Spot)
  | 0, _ => .error (.token "found unexpected end of stream")
  | steps + 1, s =>
    let quote := if double then '"' else '\''
    let next (part : List Char) (rest : List Spot) : Except ReadError (List Char × List Spot) := do
      let (more, rest) ← quotedTextIn double steps rest
      return (part ++ more, rest)
    let c := peek s
    if c == endMark then .error (.token "found unexpected end of stream")
    else if c == quote then
      if !double && peek (s.drop 1) == '\'' then next ['\''] (s.drop 2) else .ok ([], s.drop 1)
    else if double && c == '\\' then do
      let (part, rest) ← escape (s.drop 1)
      next part rest
    else if isQuotedBlank c || isBreak c then do
      let (part, rest) ← quotedGap s
      next part rest
    else next [c] (s.drop 1)

/-- Reads a quoted scalar behind its opening quote. -/
def quotedText (double : Bool) (s : List Spot) : Except ReadError (List Char × List Spot) :=
  quotedTextIn double s.length s

end Galley.Yaml
