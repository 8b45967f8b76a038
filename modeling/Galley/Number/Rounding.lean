/-!
# Rounding

A quotient of natural numbers rounded to the nearest whole number, a tie going to the even one.
-/

namespace Galley

/-- A quotient rounded to the nearest whole number, a tie to the even one. -/
def roundDiv (n d : Nat) : Nat :=
  let q := n / d
  let twice := 2 * (n % d)
  if twice < d ∨ (twice = d ∧ q % 2 = 0) then q else q + 1

/-- Rounding a multiple gives the factor. -/
theorem roundDiv_mul (q d : Nat) (hd : 0 < d) : roundDiv (q * d) d = q := by
  simp [roundDiv, Nat.mul_div_cancel _ hd, hd]

end Galley
