/-!
# Latin-1

In this encoding every byte is the character with the same number, so decoding never fails and
loses nothing. The logs of TeX and BibTeX and the auxiliary files are read in it, because font
metadata in them need not be valid UTF-8.
-/

namespace Galley.Text

/-- The characters that bytes stand for in Latin-1. -/
def latin1 (bytes : List UInt8) : List Char := bytes.map fun b => Char.ofNat b.toNat

end Galley.Text
