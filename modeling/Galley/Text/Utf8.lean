import Galley.Text.Quoted

/-!
# UTF-8

One step of decoding, `Utf8.step`, looks at the first bytes of an input and finds there either a
character or a **flaw**: the longest run of bytes that starts a well-formed sequence without
finishing it, or else a single byte. `utf8` reports the first flaw with its position;
`utf8Lossy` puts one replacement character in place of each flaw.
-/

namespace Galley.Text

/-- What is wrong with a byte sequence. -/
inductive Utf8Flaw where
  | startByte
  | continuation
  | endOfData
  deriving DecidableEq, Repr

/-- The wording of a flaw. -/
def Utf8Flaw.message : Utf8Flaw → String
  | .startByte => "invalid start byte"
  | .continuation => "invalid continuation byte"
  | .endOfData => "unexpected end of data"

/-- A flaw in an input that must be UTF-8: its first byte, where it starts and how many bytes it
spans. -/
structure Utf8Error where
  flaw : Utf8Flaw
  byte : UInt8
  start : Nat
  length : Nat
  deriving DecidableEq, Repr

/-- The text of a decoding error. The byte is given if the flaw spans one byte only. -/
def Utf8Error.message (e : Utf8Error) : String :=
  let place :=
    if e.length = 1 then
      "byte 0x" ++ String.ofList (hexPadded 2 e.byte.toNat) ++ " in position " ++ toString e.start
    else
      "bytes in position " ++ toString e.start ++ "-" ++ toString (e.start + e.length - 1)
  "'utf-8' codec can't decode " ++ place ++ ": " ++ e.flaw.message

namespace Utf8

/-- Whether a byte continues a sequence. -/
def isContinuation (b : UInt8) : Bool := 0x80 ≤ b && b < 0xC0

/-- Whether `b` may follow the lead byte: a continuation byte that makes the sequence neither
overlong, nor a surrogate, nor larger than the last code point. -/
def mayFollow (lead b : UInt8) : Bool :=
  isContinuation b && !(lead == 0xE0 && b < 0xA0) && !(lead == 0xED && 0xA0 ≤ b) &&
    !(lead == 0xF0 && b < 0x90) && !(lead == 0xF4 && 0x90 ≤ b)

/-- How many continuation bytes a lead byte asks for. -/
def continuationCount? (lead : UInt8) : Option Nat :=
  if lead < 0x80 then some 0
  else if lead < 0xC2 then none
  else if lead < 0xE0 then some 1
  else if lead < 0xF0 then some 2
  else if lead < 0xF5 then some 3
  else none

/-- The outcome of one step: a character, or a flaw that spans `length` bytes. -/
inductive Step where
  | char (c : Char)
  | flaw (kind : Utf8Flaw) (length : Nat)

/-- The code point built so far with the six bits of one more byte. -/
def extend (point : Nat) (b : UInt8) : Nat := point * 64 + (b.toNat - 0x80)

/-- Reads the continuation bytes behind a lead byte. `length` counts the bytes read so far,
`missing` those still to come, and `allowed` tells which byte may come next. -/
def continueWith (length point : Nat) (allowed : UInt8 → Bool) : Nat → List UInt8 → Step
  | 0, _ => .char (Char.ofNat point)
  | _ + 1, [] => .flaw .endOfData length
  | missing + 1, b :: rest =>
    if allowed b then continueWith (length + 1) (extend point b) isContinuation missing rest
    else .flaw .continuation length

/-- The part of the code point that a lead byte carries. -/
def leadBits (lead : UInt8) : Nat :=
  if lead < 0x80 then lead.toNat
  else if lead < 0xE0 then lead.toNat - 0xC0
  else if lead < 0xF0 then lead.toNat - 0xE0
  else lead.toNat - 0xF0

/-- Decodes the sequence that starts with the byte `lead`. -/
def step (lead : UInt8) (rest : List UInt8) : Step :=
  match continuationCount? lead with
  | none => .flaw .startByte 1
  | some n => continueWith 1 (leadBits lead) (mayFollow lead) n rest

/-- How many bytes a step takes. -/
def Step.length : Step → Nat
  | .char c => c.utf8Size
  | .flaw _ n => n

/-- The characters of the input from byte number `start` on, or the first flaw. The bytes that a
step takes beyond its first are passed over by counting `skip` down. -/
def decodeFrom (start skip : Nat) : List UInt8 → Except Utf8Error (List Char)
  | [] => .ok []
  | b :: rest =>
    match skip with
    | k + 1 => decodeFrom (start + 1) k rest
    | 0 =>
      match step b rest with
      | .flaw kind n => .error ⟨kind, b, start, n⟩
      | .char c => (decodeFrom (start + 1) (c.utf8Size - 1) rest).map (c :: ·)

/-- The characters of the input, each flaw as one replacement character. -/
def decodeLossyFrom (skip : Nat) : List UInt8 → List Char
  | [] => []
  | b :: rest =>
    match skip with
    | k + 1 => decodeLossyFrom k rest
    | 0 =>
      match step b rest with
      | .flaw _ n => Char.ofNat 0xFFFD :: decodeLossyFrom (n - 1) rest
      | .char c => c :: decodeLossyFrom (c.utf8Size - 1) rest

end Utf8

/-- The characters of a UTF-8 input, or its first flaw. -/
def utf8 (bytes : List UInt8) : Except Utf8Error (List Char) := Utf8.decodeFrom 0 0 bytes

/-- The characters of an input that should be UTF-8, each flaw as one U+FFFD. -/
def utf8Lossy (bytes : List UInt8) : List Char := Utf8.decodeLossyFrom 0 bytes

/-- The UTF-8 encoding of a text. -/
def utf8Encode (s : String) : List UInt8 := s.toUTF8.toList

end Galley.Text
