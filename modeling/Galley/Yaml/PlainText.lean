import Galley.Yaml.Spot

/-!
# Plain scalars

A **plain** scalar stands without quotes and may go on over several lines, as long as the further
lines are indented more than what the scalar belongs to. A gap between two runs of characters is
spaces, which are kept, or line breaks, which are folded; a comment or a mark between documents
ends the scalar.
-/

namespace Galley.Yaml

/-- Whether a colon before `s` ends a plain scalar. -/
def colonEnds (flow : Bool) (s : List Spot) : Bool :=
  isGap (peek s) || (flow && isFlowMark (peek s))

/-- A run of characters of a plain scalar, without gaps. -/
def plainRun (flow : Bool) : List Spot → List Char × List Spot
  | [] => ([], [])
  | p :: r =>
    if isGap p.char || (p.char == ':' && colonEnds flow r) ||
        (flow && (isFlowMark p.char || p.char == '?')) then
      ([], p :: r)
    else
      let (run, rest) := plainRun flow r
      (p.char :: run, rest)

/-- The empty lines behind a line break. There are none to give if a mark between documents
follows a break. -/
def plainBreaks (fresh : Bool) : List Spot → Option (List Char) × List Spot
  | [] => (some [], [])
  | p :: r =>
    if fresh && atDocumentMark (p :: r) then (none, p :: r)
    else if p.char == ' ' then plainBreaks false r
    else if isBreak p.char then
      let (breaks, rest) := plainBreaks true r
      (breaks.map (breakText p.char :: ·), rest)
    else (some [], p :: r)

/-- A gap in a plain scalar. -/
structure PlainGap where
  /-- What the scalar has for it; nothing if the scalar ends here. -/
  text : List Char
  /-- Whether a line ends in it. -/
  breaksLine : Bool
  rest : List Spot

/-- Reads a gap in a plain scalar. -/
def plainGap (s : List Spot) : PlainGap :=
  let spaces := s.takeWhile (·.char == ' ')
  match takeBreak (skipSpaces s) with
  | ([], rest) => ⟨spaces.map (·.char), false, rest⟩
  | (break?, rest) =>
    match plainBreaks true rest with
    | (none, rest) => ⟨[], true, rest⟩
    | (some breaks, rest) => ⟨fold break? breaks, true, rest⟩

/-- A plain scalar that was read. -/
structure PlainText where
  text : List Char
  /-- Whether a line ends in the gap behind it. -/
  breaksLine : Bool
  rest : List Spot

/-- Reads a plain scalar whose further lines start in column `indent` or behind it. Each of its
runs takes one of `runs`. -/
def plainTextIn (flow : Bool) (indent : Nat) : Nat → List Spot → PlainText
  | 0, s => ⟨[], false, s⟩
  | runs + 1, s =>
    let (run, behind) := plainRun flow s
    let gap := plainGap behind
    if gap.text = [] || peek gap.rest == '#' || (!flow && column gap.rest < indent) then
      ⟨run, gap.breaksLine, gap.rest⟩
    else if (plainRun flow gap.rest).1 = [] then ⟨run, gap.breaksLine, gap.rest⟩
    else
      let more := plainTextIn flow indent runs gap.rest
      { more with text := run ++ gap.text ++ more.text }

/-- Reads a plain scalar. -/
def plainText (flow : Bool) (indent : Nat) (s : List Spot) : PlainText :=
  plainTextIn flow indent s.length s

end Galley.Yaml
