import Galley.Text.Trim

/-!
# Shell scripts

A script is a sequence of simple commands. A command is a row of words, with redirections among
them. A word is put together from literal text and from **expansions**, which stand for the value
of a parameter or for the output of a script; what is expanded outside of double quotes is cut
into fields at its blanks.
-/

namespace Galley.Shell

open Text

/-- A piece of a word. -/
inductive Piece where
  | text (s : List Char)
  | parameter (name : String) (quoted : Bool)
  | output (script : List Char) (quoted : Bool)
  deriving DecidableEq, Repr

/-- A word. -/
structure Word where
  pieces : List Piece
  /-- Whether a part of it is quoted; such a word is there even if it is empty. -/
  quoted : Bool
  deriving DecidableEq, Repr

/-- Where a redirection leads. -/
inductive Target where
  /-- To a file, either emptied first or gone on with. -/
  | file (append : Bool) (name : Word)
  /-- To where another stream leads. -/
  | stream (n : Nat)
  deriving DecidableEq, Repr

/-- A simple command. -/
structure SimpleCommand where
  words : List Word := []
  redirections : List (Nat × Target) := []
  deriving DecidableEq, Repr

/-- When a command of a sequence is carried out. -/
inductive Condition where
  | always
  | afterSuccess
  | afterFailure
  deriving DecidableEq, Repr

/-- A script. -/
abbrev Script : Type := List (Condition × SimpleCommand)

/-- What is reported about a text that is no script. -/
structure SyntaxError where
  message : String
  deriving DecidableEq, Repr

/-! ### Words -/

/-- Whether a character may stand in the name of a parameter. -/
def isNameChar (c : Char) : Bool := c.isAlphanum || c == '_'

/-- The parameters whose name is one special character. -/
def specialParameters : List Char := ['$', '?', '#', '@', '*', '!', '-']

/-- The text up to the parenthesis that closes `depth` open ones, and what is behind it. -/
def upToParenthesis (depth : Nat) : List Char → List Char × List Char
  | [] => ([], [])
  | c :: r =>
    if c == ')' && depth == 0 then ([], r)
    else
      let depth := if c == '(' then depth + 1 else if c == ')' then depth - 1 else depth
      let (inner, rest) := upToParenthesis depth r
      (c :: inner, rest)

/-- The expansion behind a dollar sign; a dollar sign with nothing to expand stands for itself. -/
def expansion (quoted : Bool) : List Char → Piece × List Char
  | '(' :: r =>
    let (script, rest) := upToParenthesis 0 r
    (.output script quoted, rest)
  | '\x7b' :: r =>
    let (name, rest) := r.span (· != '\x7d')
    (.parameter (String.ofList name) quoted, rest.drop 1)
  | c :: r =>
    if c.isDigit || specialParameters.contains c then (.parameter (String.ofList [c]) quoted, r)
    else if isNameChar c then
      let (name, rest) := (c :: r).span isNameChar
      (.parameter (String.ofList name) quoted, rest)
    else (.text ['$'], c :: r)
  | [] => (.text ['$'], [])

/-- Whether a backslash in double quotes takes a character literally. -/
def isEscapable (c : Char) : Bool := c == '$' || c == '\\' || c == '"'

/-- The pieces up to the closing double quote, and what is behind it, in at most `steps` steps. -/
def doubleQuoted : Nat → List Char → Except SyntaxError (List Piece × List Char)
  | 0, _ => .error ⟨"Unterminated quoted string"⟩
  | steps + 1, s =>
    let next (p : Piece) (rest : List Char) : Except SyntaxError (List Piece × List Char) := do
      let (pieces, rest) ← doubleQuoted steps rest
      return (p :: pieces, rest)
    match s with
    | [] => .error ⟨"Unterminated quoted string"⟩
    | '"' :: r => .ok ([], r)
    | '\\' :: '\n' :: r => next (.text []) r
    | '\\' :: c :: r => next (.text (if isEscapable c then [c] else ['\\', c])) r
    | '$' :: r =>
      let (p, rest) := expansion true r
      next p rest
    | c :: r => next (.text [c]) r

/-- Whether a character ends a word. -/
def endsWord (c : Char) : Bool := [' ', '\t', '\n', ';', '&', '|', '<', '>', '(', ')'].contains c

/-- The word that a text starts with, and what is behind it, in at most `steps` steps. -/
def takeWord : Nat → List Char → Except SyntaxError (Word × List Char)
  | 0, s => .ok (⟨[], false⟩, s)
  | steps + 1, s =>
    let next (ps : List Piece) (quoted : Bool) (rest : List Char) :
        Except SyntaxError (Word × List Char) := do
      let (w, rest) ← takeWord steps rest
      return (⟨ps ++ w.pieces, quoted || w.quoted⟩, rest)
    match s with
    | [] => .ok (⟨[], false⟩, [])
    | '\'' :: r =>
      match cutFirst? '\'' r with
      | none => .error ⟨"Unterminated quoted string"⟩
      | some (inner, rest) => next [.text inner] true rest
    | '"' :: r => do
      let (pieces, rest) ← doubleQuoted (r.length + 1) r
      next pieces true rest
    | '\\' :: '\n' :: r => next [] false r
    | '\\' :: c :: r => next [.text [c]] true r
    | '$' :: r =>
      let (p, rest) := expansion false r
      next [p] false rest
    | c :: r => if endsWord c then .ok (⟨[], false⟩, c :: r) else next [.text [c]] false r

/-! ### Commands -/

/-- Passes over spaces. -/
def skipBlanks (s : List Char) : List Char := s.dropWhile fun c => c == ' ' || c == '\t'

/-- The redirection behind its sign `>`, of the stream `n`. -/
def redirection (n : Nat) (s : List Char) : Except SyntaxError ((Nat × Target) × List Char) := do
  match s with
  | '&' :: c :: r =>
    if c.isDigit then return ((n, .stream (c.toNat - 48)), r)
    throw ⟨"Bad fd number"⟩
  | '>' :: r =>
    let (w, rest) ← takeWord (r.length + 1) (skipBlanks r)
    return ((n, .file true w), rest)
  | r =>
    let (w, rest) ← takeWord (r.length + 1) (skipBlanks r)
    return ((n, .file false w), rest)

/-- Reads a simple command, in at most `steps` steps. -/
def takeCommand : Nat → List Char → Except SyntaxError (SimpleCommand × List Char)
  | 0, s => .ok ({}, s)
  | steps + 1, s =>
    let redirect (n : Nat) (r : List Char) : Except SyntaxError (SimpleCommand × List Char) := do
      let (target, rest) ← redirection n r
      let (command, rest) ← takeCommand steps rest
      return ({ command with redirections := target :: command.redirections }, rest)
    match skipBlanks s with
    | '#' :: r => .ok ({}, r.dropWhile (· != '\n'))
    | '>' :: r => redirect 1 r
    | '1' :: '>' :: r => redirect 1 r
    | '2' :: '>' :: r => redirect 2 r
    | s => do
      let (w, rest) ← takeWord (s.length + 1) s
      if w.pieces = [] && !w.quoted then return ({}, s)
      let (command, rest) ← takeCommand steps rest
      return ({ command with words := w :: command.words }, rest)

/-- Reads the commands of a script, in at most `steps` steps. The first one is carried out on a
condition. -/
def takeCommands : Nat → Condition → List Char → Except SyntaxError Script
  | 0, _, _ => .ok []
  | steps + 1, condition, s => do
    let (command, rest) ← takeCommand (s.length + 1) s
    let go (next : Condition) (rest : List Char) : Except SyntaxError Script := do
      return (condition, command) :: (← takeCommands steps next rest)
    match rest with
    | [] => return [(condition, command)]
    | '&' :: '&' :: r => go .afterSuccess r
    | '|' :: '|' :: r => go .afterFailure r
    | ';' :: r => go .always r
    | '\n' :: r => go .always r
    | c :: _ => throw ⟨"\"" ++ String.ofList [c] ++ "\" unexpected"⟩

/-- Reads a script. -/
def Script.read (text : List Char) : Except SyntaxError Script := do
  let commands ← takeCommands (text.length + 1) .always text
  return commands.filter fun (_, c) => c != {}

end Galley.Shell
