import Galley.Yaml.Token

/-!
# Nodes of a YAML document

A document is one **node**: a scalar, a list of nodes or a mapping of nodes. `Node.read` finds the
node of a text, or nothing in an empty text. Where a node may be left out, an empty plain scalar
stands for it.

The reader follows the grammar of the tokens. It never looks at a token before it needs it, so
that of two errors in a document the first one is reported.
-/

namespace Galley.Yaml

/-- A node of a document. -/
inductive Node where
  | scalar (plain : Bool) (text : List Char)
  | list (items : List Node)
  | map (pairs : List (Node × Node))

namespace Node

/-- The node that stands for one that is left out. -/
def omitted : Node := .scalar true []

/-- The tokens that are left, and the error behind them. -/
structure Tokens where
  tokens : List Token
  fault : Option ReadError

/-- A step of reading. -/
abbrev Reader (α : Type) : Type := StateT Tokens (Except ReadError) α

/-- The next token. -/
def next : Reader Token := do
  let s ← get
  match s.tokens with
  | t :: _ => return t
  | [] => throw (s.fault.getD (.structure "found the end of the stream"))

/-- Passes over the next token. -/
def skip : Reader Unit := modify fun s => { s with tokens := s.tokens.drop 1 }

/-- Reports the next token. -/
def unexpected {α : Type} (expected : String) : Reader α :=
  throw (.structure ("expected " ++ expected))

/-- What kind of node may come next. -/
inductive Place where
  /-- A node of any kind. -/
  | block
  /-- The key or value of a block mapping, where a list needs no indentation. -/
  | inMapping
  /-- A node inside a flow collection. -/
  | flow
  deriving DecidableEq, Repr

/-- Whether a token ends the entry that it stands in, so that a node is left out before it. -/
def endsEntry (t : Token) : Bool :=
  t matches .blockEntry | .key | .value | .blockEnd

/-- Whether a token ends the key or the value that it stands in. -/
def endsPart (t : Token) : Bool := t matches .key | .value | .blockEnd

/-- Whether a token ends the part of a flow collection that it stands in. -/
def endsFlowPart (close t : Token) : Bool := t == .flowEntry || t == close

/-- Reads the comma in front of an entry of a flow collection that is not its first one. -/
def comma (isFirst : Bool) (expected : String) : Reader Unit := do
  if isFirst then return
  match ← next with
  | .flowEntry => skip
  | _ => unexpected expected

mutual

/-- Reads a node. -/
def node : Nat → Place → Reader Node
  | 0, _ => unexpected "an end"
  | depth + 1, place => do
    match ← next, place with
    | .scalar plain text, _ => do
      skip
      return .scalar plain text
    | .flowSequenceStart, _ => do
      skip
      return .list (← flowItems depth true)
    | .flowMappingStart, _ => do
      skip
      return .map (← flowPairs depth true)
    | .blockEntry, .inMapping => return .list (← bareItems depth)
    | .blockSequenceStart, .block | .blockSequenceStart, .inMapping => do
      skip
      return .list (← blockItems depth)
    | .blockMappingStart, .block | .blockMappingStart, .inMapping => do
      skip
      return .map (← blockPairs depth)
    | _, _ => unexpected "the node content"

/-- Reads a node, unless the next token ends what it stands in. -/
def nodeUnless : Nat → Place → (Token → Bool) → Reader Node
  | 0, _, _ => unexpected "an end"
  | depth + 1, place, ends => do
    if ends (← next) then return omitted
    node depth place

/-- Reads the entries of a block sequence up to its end. -/
def blockItems : Nat → Reader (List Node)
  | 0 => unexpected "an end"
  | depth + 1 => do
    match ← next with
    | .blockEntry => do
      skip
      let item ← nodeUnless depth .block (· matches .blockEntry | .blockEnd)
      return item :: (← blockItems depth)
    | .blockEnd => do
      skip
      return []
    | _ => unexpected "<block end>"

/-- Reads the entries of a sequence that is not indented. -/
def bareItems : Nat → Reader (List Node)
  | 0 => unexpected "an end"
  | depth + 1 => do
    match ← next with
    | .blockEntry => do
      skip
      let item ← nodeUnless depth .block endsEntry
      return item :: (← bareItems depth)
    | _ => return []

/-- Reads the pairs of a block mapping up to its end. -/
def blockPairs : Nat → Reader (List (Node × Node))
  | 0 => unexpected "an end"
  | depth + 1 => do
    match ← next with
    | .key => do
      skip
      let key ← nodeUnless depth .inMapping endsPart
      let value ← valueAfter depth .inMapping endsPart
      return (key, value) :: (← blockPairs depth)
    | .blockEnd => do
      skip
      return []
    | _ => unexpected "<block end>"

/-- Reads the value behind a key, if there is one. -/
def valueAfter : Nat → Place → (Token → Bool) → Reader Node
  | 0, _, _ => unexpected "an end"
  | depth + 1, place, ends => do
    match ← next with
    | .value => do
      skip
      nodeUnless depth place ends
    | _ => return omitted

/-- Reads the entries of a flow sequence up to its end. A pair among them is a mapping. -/
def flowItems : Nat → Bool → Reader (List Node)
  | 0, _ => unexpected "an end"
  | depth + 1, isFirst => do
    if (← next) == .flowSequenceEnd then
      skip
      return []
    comma isFirst "',' or ']'"
    match ← next with
    | .key => do
      skip
      let ends (t : Token) : Bool := t == .value || endsFlowPart .flowSequenceEnd t
      let key ← nodeUnless depth .flow ends
      let value ← valueAfter depth .flow (endsFlowPart .flowSequenceEnd)
      return .map [(key, value)] :: (← flowItems depth false)
    | .flowSequenceEnd => do
      skip
      return []
    | _ => do
      let item ← node depth .flow
      return item :: (← flowItems depth false)

/-- Reads the pairs of a flow mapping up to its end. An entry that is no pair is a key. -/
def flowPairs : Nat → Bool → Reader (List (Node × Node))
  | 0, _ => unexpected "an end"
  | depth + 1, isFirst => do
    if (← next) == .flowMappingEnd then
      skip
      return []
    comma isFirst "',' or '\x7d'"
    match ← next with
    | .key => do
      skip
      let ends (t : Token) : Bool := t == .value || endsFlowPart .flowMappingEnd t
      let key ← nodeUnless depth .flow ends
      let value ← valueAfter depth .flow (endsFlowPart .flowMappingEnd)
      return (key, value) :: (← flowPairs depth false)
    | .flowMappingEnd => do
      skip
      return []
    | _ => do
      let key ← node depth .flow
      return (key, omitted) :: (← flowPairs depth false)

end

/-- Passes over marks that end documents. -/
def skipDocumentEnds : Reader Unit :=
  modify fun s => { s with tokens := s.tokens.dropWhile (· == .documentEnd) }

/-- Reads what is left behind the node of a document: nothing may be. -/
def finish : Reader Unit := do
  skipDocumentEnds
  match ← next with
  | .streamEnd => return
  | .documentStart => throw .secondDocument
  | _ => unexpected "<document start>"

/-- Reads a document, if there is one. -/
def document (depth : Nat) : Reader (Option Node) := do
  match ← next with
  | .streamEnd => return none
  | .documentStart => do
    skip
    let ends (t : Token) : Bool := t matches .documentStart | .documentEnd | .streamEnd
    let n ← nodeUnless depth .block ends
    finish
    return some n
  | _ => do
    let n ← node depth .block
    finish
    return some n

/-- The node of a text, or nothing if the text is empty. -/
def read (text : List Char) : Except ReadError (Option Node) :=
  if !text.all isAllowed then .error .character
  else
    let (tokens, fault) := Token.scan text
    (document (4 * tokens.length + 8)).run' ⟨tokens, fault⟩

end Node

end Galley.Yaml
