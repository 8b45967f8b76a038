import Galley.Number.Rounding

/-!
# Binary floating-point numbers

A number of the 64-bit format is `significand * 2 ^ exponent`. A fraction is read as the nearest
such number, a tie going to the even significand, and a number is written with the fewest digits
that are read as the same number.

The text of a number is positional as long as its point stands no more than three places before
the first digit and no more than sixteen places behind it; elsewhere it has an exponent of two
digits at least.
-/

namespace Galley

/-- A positive number of the format, or zero. -/
structure Binary64 where
  significand : Nat
  exponent : Int
  deriving DecidableEq, Repr

namespace Binary64

/-- The least exponent. -/
def minExponent : Int := -1074

/-- The greatest exponent. -/
def maxExponent : Int := 971

/-- The least significand of a number that is not too small for all its places. -/
def leastSignificand : Nat := Nat.pow 2 52

/-- What every significand is less than. -/
def significandBound : Nat := Nat.pow 2 53

/-- The power of a base with an exponent of either sign, as a fraction. -/
def power (base : Nat) : Int → Nat × Nat
  | .ofNat n => (Nat.pow base n, 1)
  | .negSucc n => (1, Nat.pow base (n + 1))

/-- The number that 64 bits without a sign stand for, if it is finite. -/
def ofBits? (bits : Nat) : Option Binary64 :=
  let exponent := bits / leastSignificand
  let fraction := bits % leastSignificand
  if exponent = 2047 then none
  else if exponent = 0 then some ⟨fraction, minExponent⟩
  else some ⟨leastSignificand + fraction, minExponent + (exponent - 1 : Nat)⟩

/-- A number as whether it is negative and its size, if it is finite. -/
def ofFloat? (x : Float) : Option (Bool × Binary64) :=
  let bits := x.toBits.toNat
  let sign := Nat.pow 2 63
  (ofBits? (bits % sign)).map fun b => (decide (sign ≤ bits), b)

/-- A fraction rounded to a multiple of a power of two. -/
def roundAt (n d : Nat) (exponent : Int) : Nat :=
  let (up, down) := power 2 exponent
  roundDiv (n * down) (d * up)

/-- The nearest number to the fraction `n / d`, unless that is beyond the greatest number. -/
def ofFraction? (n d : Nat) : Option Binary64 :=
  -- the significand has 53 digits at this exponent or at the one below it
  let guess : Int := (Nat.log2 n : Int) - Nat.log2 d - 52
  let exponent := max guess minExponent
  let m := roundAt n d exponent
  let least := max (guess - 1) minExponent
  let fine := roundAt n d least
  let b : Binary64 :=
    if fine < significandBound then ⟨fine, least⟩
    else if m < significandBound then ⟨m, exponent⟩
    else ⟨m / 2, exponent + 1⟩
  if b.exponent ≤ maxExponent then some b else none

/-- How far the interval of what is read as a number reaches below it, in quarters of its last
place: two, and only one at a power of two, where the places below are half as wide. -/
def reachBelow (b : Binary64) : Nat :=
  if b.significand = leastSignificand ∧ minExponent < b.exponent then 1 else 2

/-- The multiple of a power of ten that is read as the number, and is nearest to it, if one of
its two neighbours among these multiples is. -/
def neighbour? (b : Binary64) (place : Int) : Option Nat :=
  let (up2, down2) := power 2 (b.exponent - 2)
  let (up10, down10) := power 10 place
  let unit := up10 * down2
  let scale := up2 * down10
  let value := 4 * b.significand * scale
  let low := (4 * b.significand - b.reachBelow) * scale
  let high := (4 * b.significand + 2) * scale
  let even := b.significand % 2 = 0
  let within (q : Nat) : Bool :=
    if even then low ≤ q * unit && q * unit ≤ high else low < q * unit && q * unit < high
  let below := value / unit
  -- the nearest multiple comes first; the other one is needed where the interval is lopsided
  let near := roundDiv value unit
  [near, below, below + 1].find? within

/-- How many digits a positive number has before its point; a negative number counts the zeros
behind it. -/
def digitsBeforePoint (b : Binary64) : Int :=
  let (up, down) := power 2 b.exponent
  let n := b.significand * up
  if down ≤ n then ((Nat.toDigits 10 (n / down)).length : Int)
  else 1 - ((Nat.toDigits 10 ((down - 1) / n)).length : Int)

/-- The fewest digits that are read as a positive number, as a number, and the place of the last
one of them. -/
def shortest (b : Binary64) : Nat × Int :=
  let before := b.digitsBeforePoint
  let candidate (count : Nat) : Option (Nat × Int) :=
    (b.neighbour? (before - count)).map fun q => (q, before - count)
  ((List.range' 1 17).findSome? candidate).getD (0, 0)

/-- The text of digits whose point stands behind `point` of them. -/
def layOut (digits : List Char) (point : Int) : List Char :=
  if -4 < point ∧ point ≤ 16 then
    match point with
    | .ofNat n =>
      if n = 0 then '0' :: '.' :: digits
      else
        let padded := digits ++ List.replicate (n - digits.length) '0'
        let fraction := padded.drop n
        padded.take n ++ '.' :: (if fraction = [] then ['0'] else fraction)
    | .negSucc n => '0' :: '.' :: List.replicate (n + 1) '0' ++ digits
  else
    let exponent := point - 1
    let size := (toString exponent.natAbs).toList
    digits.take 1 ++ (if digits.length ≤ 1 then [] else '.' :: digits.drop 1) ++
      'e' :: (if exponent < 0 then '-' else '+') :: List.replicate (2 - size.length) '0' ++ size

/-- The text of a number. -/
protected def toString (b : Binary64) : String :=
  if b.significand = 0 then "0.0"
  else
    let (q, place) := b.shortest
    let digits := Nat.toDigits 10 q
    let trimmed := (digits.reverse.dropWhile (· == '0')).reverse
    String.ofList (layOut trimmed (digits.length + place))

instance : ToString Binary64 := ⟨Binary64.toString⟩

end Binary64

end Galley
