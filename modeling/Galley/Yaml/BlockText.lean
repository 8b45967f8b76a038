import Galley.Yaml.Spot

/-!
# Block scalars

A block scalar stands on the lines below its indicator, indented. A **literal** one keeps its line
breaks and a **folded** one folds them between lines that do not start with a blank. Of the line
breaks at the end one is kept, unless the header asks for all of them or for none.
-/

namespace Galley.Yaml

/-- What a block scalar keeps of the line breaks at its end. -/
inductive Chomping where
  | strip
  | clip
  | keep
  deriving DecidableEq, Repr

/-- The header of a block scalar. -/
structure BlockHeader where
  chomping : Chomping := .clip
  /-- The indentation of its lines beyond that of what it belongs to, if given. -/
  increment : Option Nat := none
  deriving DecidableEq, Repr

/-- The chomping that a character asks for. -/
def chomping? (c : Char) : Option Chomping :=
  if c == '+' then some .keep else if c == '-' then some .strip else none

/-- The increment that a character gives. -/
def increment? (c : Char) : Option Nat :=
  if 48 ≤ c.toNat ∧ c.toNat ≤ 57 then some (c.toNat - 48) else none

/-- Reads the indicators of a header: one of each kind at most, in either order. -/
def blockIndicators (s : List Spot) : BlockHeader × List Spot :=
  match chomping? (peek s) with
  | some chomping =>
    (match increment? (peek (s.drop 1)) with
    | some n => (⟨chomping, some n⟩, s.drop 2)
    | none => (⟨chomping, none⟩, s.drop 1))
  | none =>
    match increment? (peek s) with
    | some n =>
      (match chomping? (peek (s.drop 1)) with
      | some chomping => (⟨chomping, some n⟩, s.drop 2)
      | none => (⟨.clip, some n⟩, s.drop 1))
    | none => ({}, s)

/-- Reads a header with the rest of its line. -/
def blockHeader (s : List Spot) : Except ReadError (BlockHeader × List Spot) :=
  let (header, s) := blockIndicators s
  if header.increment = some 0 then
    .error (.token "expected indentation indicator in the range 1-9, but found 0")
  else if !(isGap (peek s) && peek s != '\t') then
    .error (.token "expected chomping or indentation indicators")
  else
    let s := skipSpaces s
    let s := if peek s == '#' then skipLine s else s
    if peek s == endMark || isBreak (peek s) then .ok (header, (takeBreak s).2)
    else .error (.token "expected a comment or a line break")

/-- Reads the empty lines in front of the first line, together with its indentation. Gives their
breaks and the deepest indentation among all of these lines. -/
def blockIndentation : List Spot → List Char × Nat × List Spot
  | [] => ([], 0, [])
  | p :: r =>
    if p.char == ' ' then
      let (breaks, deepest, rest) := blockIndentation r
      (breaks, max (p.column + 1) deepest, rest)
    else if isBreak p.char then
      let (breaks, deepest, rest) := blockIndentation r
      (breakText p.char :: breaks, deepest, rest)
    else ([], 0, p :: r)

/-- Reads empty lines and the indentation behind them, up to the column `indent`. -/
def blockBreaks (indent : Nat) : List Spot → List Char × List Spot
  | [] => ([], [])
  | p :: r =>
    if p.char == ' ' && p.column < indent then blockBreaks indent r
    else if isBreak p.char then
      let (breaks, rest) := blockBreaks indent r
      (breakText p.char :: breaks, rest)
    else ([], p :: r)

/-- What a block scalar has at its end, the last break and those of the empty lines behind it. -/
def Chomping.tail (c : Chomping) (last breaks : List Char) : List Char :=
  match c with
  | .strip => []
  | .clip => last
  | .keep => last ++ breaks

/-- Whether a line of the scalar is next. -/
def atBlockLine (indent : Nat) (s : List Spot) : Bool := column s == indent && peek s != endMark

/-- Whether a blank is next. -/
def atBlank (s : List Spot) : Bool := peek s == ' ' || peek s == '\t'

/-- Reads the lines of a block scalar, at most `lines` of them. `breaks` are the empty lines in
front. -/
def blockLines (folded : Bool) (chomping : Chomping) (indent : Nat) :
    Nat → List Char → List Spot → List Char × List Spot
  | 0, breaks, s => (chomping.tail [] breaks, s)
  | lines + 1, breaks, s =>
    if atBlockLine indent s then
      let line := (s.take (s.length - (skipLine s).length)).map (·.char)
      let (last, behind) := takeBreak (skipLine s)
      let (empty, rest) := blockBreaks indent behind
      if atBlockLine indent rest then
        let join :=
          if folded && last == ['\n'] && !atBlank s && !atBlank rest then
            (if empty = [] then [' '] else [])
          else last
        let (more, rest) := blockLines folded chomping indent lines empty rest
        (breaks ++ line ++ join ++ more, rest)
      else (breaks ++ line ++ chomping.tail last empty, rest)
    else (chomping.tail [] breaks, s)

/-- Reads a block scalar behind its indicator. Its lines are indented to `least` or more. -/
def blockText (folded : Bool) (least : Nat) (s : List Spot) :
    Except ReadError (List Char × List Spot) := do
  let (header, s) ← blockHeader s
  match header.increment with
  | none =>
    let (breaks, deepest, s) := blockIndentation s
    return blockLines folded header.chomping (max least deepest) s.length breaks s
  | some n =>
    let indent := least + n - 1
    let (breaks, s) := blockBreaks indent s
    return blockLines folded header.chomping indent s.length breaks s

end Galley.Yaml
