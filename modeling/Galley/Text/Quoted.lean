import Galley.Text.Printable

/-!
# Quoted text

A text that stands inside a message is shown in quotes: single ones, or double ones if it holds
single quotes and no double ones. The quote in use and the backslash are escaped, so are the
characters that are not printable, with the shortest of the forms `\xNN`, `\uNNNN` and
`\UNNNNNNNN`.
-/

namespace Galley.Text

/-- The lower-case hexadecimal digits of a number, padded with zeros to `width`. -/
def hexPadded (width n : Nat) : List Char :=
  let ds := Nat.toDigits 16 n
  List.replicate (width - ds.length) '0' ++ ds

/-- One character as it stands between quotes of the form `quote`. -/
def quotedChar (quote c : Char) : List Char :=
  if c = quote ∨ c = '\\' then ['\\', c]
  else if c = '\t' then ['\\', 't']
  else if c = '\n' then ['\\', 'n']
  else if c = '\r' then ['\\', 'r']
  else if isPrintable c then [c]
  else if c.toNat < 0x100 then '\\' :: 'x' :: hexPadded 2 c.toNat
  else if c.toNat < 0x10000 then '\\' :: 'u' :: hexPadded 4 c.toNat
  else '\\' :: 'U' :: hexPadded 8 c.toNat

/-- The quote for a text: double only if the text holds single quotes and no double ones. -/
def quoteFor (s : List Char) : Char := if s.contains '\'' && !s.contains '"' then '"' else '\''

/-- The text in quotes, with escapes. -/
def quoted (s : List Char) : List Char :=
  quoteFor s :: s.flatMap (quotedChar (quoteFor s)) ++ [quoteFor s]

end Galley.Text
