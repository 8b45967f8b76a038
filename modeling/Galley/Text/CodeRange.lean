/-!
# Ranges of code points

A property of characters that a standard fixes by enumeration is kept as a list of inclusive
ranges of code points.
-/

namespace Galley.Text

/-- An inclusive range of code points, first and last. -/
abbrev CodeRange := Nat × Nat

/-- Whether a code point lies in one of the ranges. -/
def CodeRange.covers (ranges : List CodeRange) (n : Nat) : Bool :=
  ranges.any fun r => r.1 ≤ n && n ≤ r.2

end Galley.Text
