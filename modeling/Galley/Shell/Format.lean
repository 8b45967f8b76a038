import Galley.Text.Numeral
import Galley.Text.Utf8

/-!
# Formatted output of the shell

A format is written with its escapes resolved and its conversions filled in from the arguments.
It is written again as long as arguments are left, and a conversion without an argument gets an
empty one. Output is bytes, so that an escape can stand for a byte that is no character.
-/

namespace Galley.Shell

open Text

/-- The value of an octal digit. -/
def octalValue? (c : Char) : Option Nat :=
  if 48 ≤ c.toNat ∧ c.toNat ≤ 55 then some (c.toNat - 48) else none

/-- The byte that up to `width` octal digits give, and what is behind them. -/
def octal (width : Nat) (s : List Char) : UInt8 × List Char :=
  let ds := (s.take width).takeWhile fun c => (octalValue? c).isSome
  (UInt8.ofNat (ds.foldl (fun n c => 8 * n + (octalValue? c).getD 0) 0), s.drop ds.length)

/-- The escapes for single characters. -/
def escapes : List (Char × Char) :=
  [('a', '\x07'), ('b', '\x08'), ('f', '\x0c'), ('n', '\n'), ('r', '\r'), ('t', '\t'),
    ('v', '\x0b'), ('\\', '\\'), ('"', '"'), ('\'', '\'')]

/-- The bytes of a character. -/
def encode (c : Char) : List UInt8 := utf8Encode (String.ofList [c])

/-- The bytes of an escape behind its backslash, and what follows it. -/
def escaped (s : List Char) : List UInt8 × List Char :=
  match s with
  | [] => (encode '\\', [])
  | c :: r =>
    match escapes.lookup c with
    | some meaning => (encode meaning, r)
    | none =>
      if (octalValue? c).isSome then
        let (b, rest) := octal 3 (c :: r)
        ([b], rest)
      else (encode '\\' ++ encode c, r)

/-- A text with its escapes resolved, in at most `steps` steps. Also tells whether an escape asks
to end the output there; an octal escape has a zero in front. -/
def resolve : Nat → List Char → List UInt8 × Bool
  | 0, _ => ([], false)
  | steps + 1, s =>
    match s with
    | [] => ([], false)
    | '\\' :: 'c' :: _ => ([], true)
    | '\\' :: '0' :: r =>
      let (b, rest) := octal 3 r
      let (more, ended) := resolve steps rest
      (b :: more, ended)
    | '\\' :: r =>
      let (bytes, rest) := escaped r
      let (more, ended) := resolve steps rest
      (bytes ++ more, ended)
    | c :: r =>
      let (more, ended) := resolve steps r
      (encode c ++ more, ended)

/-- What writing a format once gives. -/
structure Formatted where
  output : List UInt8
  /-- The arguments that are left. -/
  rest : List (List UInt8)
  /-- Whether an argument was asked for. -/
  used : Bool
  /-- Whether an argument was not what its conversion takes. -/
  failed : Bool

/-- A conversion filled in: its output, and whether the argument fits. -/
def convert (kind : Char) (argument : List UInt8) : List UInt8 × Bool :=
  match kind with
  | 's' => (argument, true)
  | 'c' => (argument.take 1, true)
  | 'b' => ((resolve (argument.length + 1) (utf8Lossy argument)).1, true)
  | _ =>
    match readInt (utf8Lossy argument) with
    | .ok n => (utf8Encode (toString n), true)
    | .error _ => (utf8Encode "0", argument = [])

/-- Writes a format once, in at most `steps` steps. -/
def formatOnce : Nat → List Char → List (List UInt8) → Formatted
  | 0, _, arguments => ⟨[], arguments, false, false⟩
  | steps + 1, s, arguments =>
    let literal (bytes : List UInt8) (rest : List Char) : Formatted :=
      let more := formatOnce steps rest arguments
      { more with output := bytes ++ more.output }
    match s with
    | [] => ⟨[], arguments, false, false⟩
    | '%' :: '%' :: r => literal (encode '%') r
    | '%' :: kind :: r =>
      if ['s', 'c', 'b', 'd', 'i', 'u'].contains kind then
        let (bytes, fits) := convert kind (arguments.headD [])
        let more := formatOnce steps r (arguments.drop 1)
        ⟨bytes ++ more.output, more.rest, true, !fits || more.failed⟩
      else literal (encode '%') (kind :: r)
    | '\\' :: r =>
      let (bytes, rest) := escaped r
      literal bytes rest
    | c :: r => literal (encode c) r

/-- Writes a format as often as the arguments need, at most `rounds` times. Also tells whether all
arguments fit. -/
def formatAll (format : List Char) : Nat → List (List UInt8) → List UInt8 × Bool
  | 0, _ => ([], true)
  | rounds + 1, arguments =>
    let once := formatOnce (format.length + 1) format arguments
    if !once.used || once.rest = [] then (once.output, !once.failed)
    else
      let (more, fits) := formatAll format rounds once.rest
      (once.output ++ more, fits && !once.failed)

/-- Writes a format with its arguments. -/
def format (text : List UInt8) (arguments : List (List UInt8)) : List UInt8 × Bool :=
  formatAll (utf8Lossy text) (arguments.length + 1) arguments

end Galley.Shell
