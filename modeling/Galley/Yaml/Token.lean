import Galley.Yaml.BlockText
import Galley.Yaml.PlainText
import Galley.Yaml.QuotedText

/-!
# Tokens of a YAML document

The tokens of a document make its layout explicit: a block collection starts where the indentation
grows and ends where it shrinks. A mapping key needs no mark of its own in front of it. Therefore
a token that may turn out to be a key is remembered until a colon follows it on the same line,
and only then the key token is put in front of it. Anchors, aliases, tags and directives are not
among the tokens.

`Token.scan` gives the tokens up to the first error. A token that may still turn out to be a key
when the error comes is not among them, nor is any token behind it: whether a key stands there is
not known.
-/

namespace Galley.Yaml

/-- A token of a document. -/
inductive Token where
  | documentStart
  | documentEnd
  | streamEnd
  | blockSequenceStart
  | blockMappingStart
  | blockEnd
  | flowSequenceStart
  | flowSequenceEnd
  | flowMappingStart
  | flowMappingEnd
  | blockEntry
  | flowEntry
  | key
  | value
  | scalar (plain : Bool) (text : List Char)
  deriving DecidableEq, Repr

/-- A token that may turn out to be a mapping key. -/
structure PossibleKey where
  /-- How many tokens stand before it. -/
  token : Nat
  /-- Whether nothing but a key can stand there. -/
  required : Bool
  index : Nat
  line : Nat
  column : Nat
  deriving DecidableEq, Repr

/-- How far a colon may stand behind the start of its key. -/
def keyReach : Nat := 1024

/-- Whether a colon at a place is too late for a key. -/
def PossibleKey.isStale (k : PossibleKey) (p : Spot) : Bool :=
  k.line != p.line || keyReach + k.index < p.index

/-- A document that is being cut into tokens. -/
structure Scanner where
  rest : List Spot
  tokens : Array Token := #[]
  /-- The columns of the open block collections, innermost first. -/
  indents : List Nat := []
  /-- The open flow collections and the block around them, innermost first, each with the token
  in it that may be a key. -/
  levels : List (Option PossibleKey) := [none]
  /-- Whether a key that has no mark may stand here. -/
  keyAllowed : Bool := true
  /-- Whether the end has been reached. -/
  finished : Bool := false

namespace Scanner

/-- Whether a flow collection is open. -/
def inFlow (s : Scanner) : Bool := 1 < s.levels.length

/-- The next spot. -/
def spot (s : Scanner) : Spot := s.rest.headD ⟨endMark, 0, 0, 0⟩

/-- Adds a token. -/
def push (s : Scanner) (t : Token) : Scanner := { s with tokens := s.tokens.push t }

/-- Goes on behind a token of `n` characters and adds it. -/
def take (s : Scanner) (n : Nat) (t : Token) : Scanner := { s.push t with rest := s.rest.drop n }

/-- The column that text belonging to the innermost block collection starts from. -/
def leastColumn (s : Scanner) : Nat :=
  match s.indents with
  | [] => 0
  | i :: _ => i + 1

/-! ### Keys -/

/-- What is reported when a key has no colon. -/
def keyWithoutColon : ReadError := .token "could not find expected ':'"

/-- Forgets the tokens that can no longer be keys. One that has to be a key is an error. -/
def checkStale (s : Scanner) : Except ReadError Scanner :=
  if s.levels.any fun k? => k?.any fun k => k.required && k.isStale s.spot then
    .error keyWithoutColon
  else .ok { s with levels := s.levels.map fun k? => k?.filter fun k => !k.isStale s.spot }

/-- Forgets the token of the innermost level that may be a key. -/
def forgetKey (s : Scanner) : Except ReadError Scanner :=
  match s.levels with
  | some k :: outer =>
    if k.required then .error keyWithoutColon else .ok { s with levels := none :: outer }
  | _ => .ok s

/-- Remembers that the next token may be a key. -/
def saveKey (s : Scanner) : Except ReadError Scanner := do
  if !s.keyAllowed then return s
  let s ← s.forgetKey
  let p := s.spot
  let key : PossibleKey :=
    { token := s.tokens.size, required := !s.inFlow && s.indents.head? == some p.column
      index := p.index, line := p.line, column := p.column }
  return { s with levels := some key :: s.levels.tail }

/-! ### Indentation -/

/-- Opens a block collection in a column behind the innermost one. -/
def indentTo (s : Scanner) (column : Nat) : Option Scanner :=
  if s.indents.head?.all (· < column) then some { s with indents := column :: s.indents } else none

/-- Closes the block collections that a column is in front of. -/
def unwind (s : Scanner) (column : Nat) : Scanner :=
  if s.inFlow then s
  else
    let (closed, kept) := s.indents.span (column < ·)
    { s with indents := kept, tokens := s.tokens ++ closed.map fun _ => Token.blockEnd }

/-- Closes all block collections. -/
def unwindAll (s : Scanner) : Scanner :=
  if s.inFlow then s
  else { s with indents := [], tokens := s.tokens ++ s.indents.map fun _ => Token.blockEnd }

/-- Opens a block collection in the column of what is next, unless one is open there. -/
def openBlock (s : Scanner) (start : Token) : Scanner :=
  match s.indentTo s.spot.column with
  | some s => s.push start
  | none => s

/-! ### One token -/

/-- The end of the document. -/
def streamEnd (s : Scanner) : Except ReadError Scanner := do
  let s ← s.unwindAll.forgetKey
  return { s.push .streamEnd with keyAllowed := false, levels := [none], finished := true }

/-- A mark between documents. -/
def documentMark (s : Scanner) (t : Token) : Except ReadError Scanner := do
  let s ← s.unwindAll.forgetKey
  return { s.take 3 t with keyAllowed := false }

/-- The start of a flow collection. -/
def flowStart (s : Scanner) (t : Token) : Except ReadError Scanner := do
  let s ← s.saveKey
  return { s.take 1 t with levels := none :: s.levels, keyAllowed := true }

/-- The end of a flow collection. -/
def flowEnd (s : Scanner) (t : Token) : Except ReadError Scanner := do
  let s ← s.forgetKey
  let levels := if s.inFlow then s.levels.tail else s.levels
  return { s.take 1 t with levels, keyAllowed := false }

/-- A comma between the entries of a flow collection. -/
def flowEntry (s : Scanner) : Except ReadError Scanner := do
  let s ← { s with keyAllowed := true }.forgetKey
  return s.take 1 .flowEntry

/-- The dash of an entry of a block sequence. -/
def blockEntry (s : Scanner) : Except ReadError Scanner := do
  if !s.inFlow && !s.keyAllowed then
    throw (.token "sequence entries are not allowed here")
  let s := if s.inFlow then s else s.openBlock .blockSequenceStart
  let s ← { s with keyAllowed := true }.forgetKey
  return s.take 1 .blockEntry

/-- The mark of a key. -/
def markedKey (s : Scanner) : Except ReadError Scanner := do
  if !s.inFlow && !s.keyAllowed then throw (.token "mapping keys are not allowed here")
  let s := if s.inFlow then s else s.openBlock .blockMappingStart
  let s ← { s with keyAllowed := !s.inFlow }.forgetKey
  return s.take 1 .key

/-- The colon in front of a value: behind a token that may be a key, it makes it one. -/
def value (s : Scanner) : Except ReadError Scanner := do
  match s.levels with
  | some k :: outer =>
    let s := { s with levels := none :: outer, keyAllowed := false }
    -- the token was a key: what marks it as one is put in front of it now
    let s := { s with tokens := s.tokens.insertIdxIfInBounds k.token .key }
    let s :=
      if s.inFlow then s
      else
        match s.indentTo k.column with
        | some s => { s with tokens := s.tokens.insertIdxIfInBounds k.token .blockMappingStart }
        | none => s
    return s.take 1 .value
  | _ =>
    if !s.inFlow && !s.keyAllowed then throw (.token "mapping values are not allowed here")
    let s := if s.inFlow then s else s.openBlock .blockMappingStart
    let s ← { s with keyAllowed := !s.inFlow }.forgetKey
    return s.take 1 .value

/-- A scalar in quotes. -/
def quoted (s : Scanner) (double : Bool) : Except ReadError Scanner := do
  let s ← s.saveKey
  let (text, rest) ← quotedText double (s.rest.drop 1)
  return { s.push (.scalar false text) with rest, keyAllowed := false }

/-- A block scalar. -/
def block (s : Scanner) (folded : Bool) : Except ReadError Scanner := do
  let s ← { s with keyAllowed := true }.forgetKey
  let (text, rest) ← blockText folded (max 1 s.leastColumn) (s.rest.drop 1)
  return { s.push (.scalar false text) with rest }

/-- A plain scalar. -/
def plain (s : Scanner) : Except ReadError Scanner := do
  let s ← s.saveKey
  let read := plainText s.inFlow s.leastColumn s.rest
  return { s.push (.scalar true read.text) with rest := read.rest, keyAllowed := read.breaksLine }

/-- Whether a plain scalar may start with a character, `next` being the one behind it. -/
def startsPlain (flow : Bool) (c next : Char) : Bool :=
  !(isGap c || isFlowMark c || "-?:#&*!|>'\"%@`".toList.contains c) ||
    (!isGap next && (c == '-' || (!flow && (c == '?' || c == ':'))))

/-- Passes over spaces, comments and line breaks. Tells whether there was a line break. -/
def skipFiller (comment broken : Bool) : List Spot → List Spot × Bool
  | [] => ([], broken)
  | p :: r =>
    if isBreak p.char then skipFiller false true r
    else if comment && p.char != endMark then skipFiller true broken r
    else if p.char == ' ' then skipFiller false broken r
    else if p.char == '#' then skipFiller true broken r
    else if p.char == byteOrderMark && p.index == 0 then skipFiller false broken r
    else (p :: r, broken)

/-- Goes on to the next token. Behind a line break a key may stand, and what the new indentation
closes is closed. -/
def toNextToken (s : Scanner) : Except ReadError Scanner := do
  let (rest, broken) := skipFiller false false s.rest
  let s := { s with rest, keyAllowed := s.keyAllowed || (broken && !s.inFlow) }
  let s ← s.checkStale
  return s.unwind s.spot.column

/-- Reads the next token. -/
def next (s : Scanner) : Except ReadError Scanner := do
  let s ← s.toNextToken
  let c := peek s.rest
  let behind := peek (s.rest.drop 1)
  let atStart := s.spot.column == 0
  if c == endMark then s.streamEnd
  else if atStart && isMark '-' s.rest then s.documentMark .documentStart
  else if atStart && isMark '.' s.rest then s.documentMark .documentEnd
  else if c == '[' then s.flowStart .flowSequenceStart
  else if c == '\x7b' then s.flowStart .flowMappingStart
  else if c == ']' then s.flowEnd .flowSequenceEnd
  else if c == '\x7d' then s.flowEnd .flowMappingEnd
  else if c == ',' then s.flowEntry
  else if c == '-' && isGap behind then s.blockEntry
  else if c == '?' && (s.inFlow || isGap behind) then s.markedKey
  else if c == ':' && (s.inFlow || isGap behind) then s.value
  else if c == '|' && !s.inFlow then s.block false
  else if c == '>' && !s.inFlow then s.block true
  else if c == '\'' then s.quoted false
  else if c == '"' then s.quoted true
  else if startsPlain s.inFlow c behind then s.plain
  else throw (.token "found a character that cannot start any token")

/-- The tokens that are certain when an error comes: those before any that may still be a key, or
that had to be one. -/
def certain (s : Scanner) : List Token :=
  let possible := (s.levels.filterMap id).filter fun k => k.required || !k.isStale s.spot
  s.tokens.toList.take ((possible.map (·.token)).foldl min s.tokens.size)

/-- Reads tokens up to the end or the first error, at most `steps` times. -/
def run : Nat → Scanner → List Token × Option ReadError
  | 0, s => (s.certain, none)
  | steps + 1, s =>
    if s.finished then (s.tokens.toList, none)
    else
      match s.next with
      | .ok s => run steps s
      | .error e => (s.certain, some e)

end Scanner

/-- The tokens of a document up to the first error. -/
def Token.scan (text : List Char) : List Token × Option ReadError :=
  let all := spots text
  Scanner.run (all.length + 1) { rest := all }

end Galley.Yaml
