import Galley.Number.Binary64

/-!
# Elapsed time

A length of time is an exact fraction of seconds. Below a minute it is shown with two decimal
places, rounded to the nearest and a tie to the even digit; from a minute on, in whole minutes and
seconds, what is left of a second being dropped.
-/

namespace Galley

/-- A length of time in seconds: a fraction with a sign of its own, so that zero can have one. -/
structure Elapsed where
  negative : Bool
  numerator : Nat
  denominator : Nat
  deriving DecidableEq, Repr

namespace Elapsed

/-- No time at all. -/
def zero : Elapsed := ⟨false, 0, 1⟩

/-- The value of a binary floating-point number, if it is finite. -/
def ofFloat? (x : Float) : Option Elapsed :=
  (Binary64.ofFloat? x).map fun (negative, b) =>
    let (up, down) := Binary64.power 2 b.exponent
    ⟨negative, b.significand * up, down⟩

/-- A number with two digits at least. -/
def twoDigits (n : Nat) : String := if n < 10 then "0" ++ toString n else toString n

/-- The text of a length of time. -/
protected def toString (e : Elapsed) : String :=
  if e.negative ∨ e.numerator < 60 * e.denominator then
    let hundredths := roundDiv (100 * e.numerator) e.denominator
    (if e.negative then "-" else "") ++ toString (hundredths / 100) ++ "." ++
      twoDigits (hundredths % 100) ++ "s"
  else
    let seconds := e.numerator / e.denominator
    toString (seconds / 60) ++ "m " ++ toString (seconds % 60) ++ "s"

instance : ToString Elapsed := ⟨Elapsed.toString⟩

end Elapsed

/-- A moment on the clock. -/
structure Clock where
  year : Nat
  month : Nat
  day : Nat
  hour : Nat
  minute : Nat
  second : Nat
  deriving DecidableEq, Repr

/-- The time of the day. -/
def Clock.time (c : Clock) : String :=
  Elapsed.twoDigits c.hour ++ ":" ++ Elapsed.twoDigits c.minute ++ ":" ++
    Elapsed.twoDigits c.second

/-- The day with the time. -/
def Clock.dateAndTime (c : Clock) : String :=
  toString c.year ++ "-" ++ Elapsed.twoDigits c.month ++ "-" ++ Elapsed.twoDigits c.day ++ " " ++
    c.time

/-- A moment as it stands in the name of a directory. -/
def Clock.stamp (c : Clock) : String :=
  toString c.year ++ Elapsed.twoDigits c.month ++ Elapsed.twoDigits c.day ++ "_" ++
    Elapsed.twoDigits c.hour ++ Elapsed.twoDigits c.minute ++ Elapsed.twoDigits c.second

end Galley
