import Galley.Number.Binary64
import Galley.Text.Trim
import Galley.Yaml.Spot
import Galley.Yaml.Value

/-!
# Scalars

What a plain scalar denotes is decided by its form: nothing, a truth value, a whole number, a
number with a fraction, or else a text. A quoted scalar is always a text.

Whole numbers are written in base ten, or in another base after a lead: `0b` for two, `0` for
eight, `0x` for sixteen. Groups separated by colons are places of base sixty. Underscores between
the digits are passed over.
-/

namespace Galley.Yaml

open Text

namespace Scalar

/-! ### Forms -/

/-- The forms of nothing. -/
def nullForms : List String := ["~", "null", "Null", "NULL", ""]

/-- The forms of true. -/
def trueForms : List String :=
  ["yes", "Yes", "YES", "true", "True", "TRUE", "on", "On", "ON"]

/-- The forms of false. -/
def falseForms : List String :=
  ["no", "No", "NO", "false", "False", "FALSE", "off", "Off", "OFF"]

/-- The forms that ask for what no scalar has: merging mappings, and a default value. -/
def markForms : List String := ["<<", "="]

/-- Whether a character is a digit of ASCII. -/
def isPlainDigit (c : Char) : Bool := 48 ≤ c.toNat && c.toNat ≤ 57

/-- The digits of a numeral, without its underscores, if it has only digits below `base` and
underscores, and one character at least. -/
def digits? (base : Nat) (s : List Char) : Option (List Nat) :=
  if s = [] then none
  else
    (s.filter (· != '_')).mapM fun c => (hexDigit? c).filter (· < base)
where
  /-- The value of a digit of base sixteen or less. -/
  hexDigit? (c : Char) : Option Nat :=
    let n := c.toNat
    if 48 ≤ n ∧ n ≤ 57 then some (n - 48)
    else if 65 ≤ n ∧ n ≤ 70 then some (n - 55)
    else if 97 ≤ n ∧ n ≤ 102 then some (n - 87)
    else none

/-- The value of digits. -/
def value (base : Nat) (ds : List Nat) : Nat := ds.foldl (fun n d => base * n + d) 0

/-- The digits of a decimal numeral that starts with a digit other than zero. -/
def positive? (s : List Char) : Option (List Nat) :=
  if s.head?.any fun c => isPlainDigit c && c != '0' then digits? 10 s else none

/-- The value of a place of base sixty: one or two digits below sixty. -/
def sixtieth? (s : List Char) : Option Nat := do
  let ds ← digits? 10 s
  if s.length ≤ 2 && ds.length = s.length && value 10 ds < 60 then some (value 10 ds) else none

/-- The value of places of base sixty behind a leading number. -/
def inSixties (lead : Nat) (places : List Nat) : Nat := value 60 (lead :: places)

/-- The leading digits and the further places of a numeral of base sixty. -/
def sixties? (s : List Char) : Option (List Nat × List Nat) :=
  match fields ':' s with
  | lead :: place :: more => do
    let places ← (place :: more).mapM sixtieth?
    return ((← digits? 10 lead), places)
  | _ => none

/-! ### Whole numbers -/

/-- A whole number without its sign: its value, or what is wrong with its digits. A numeral may
consist of underscores behind its lead, and has no value then. -/
def natural? (s : List Char) : Option (Except String Nat) :=
  let decimal (ds : List Nat) (n : Nat) : Except String Nat :=
    if ds.length ≤ digitLimit then .ok n else .error (NumeralError.tooLong ds.length).message
  let based (base : Nat) (ds : List Nat) : Except String Nat :=
    if ds = [] then .error ("invalid literal for int() with base " ++ toString base ++ ": ''")
    else .ok (value base ds)
  match s with
  | ['0'] => some (.ok 0)
  | '0' :: 'b' :: r => (digits? 2 r).map (based 2)
  | '0' :: 'x' :: r => (digits? 16 r).map (based 16)
  | '0' :: r => (digits? 8 r).map fun ds => .ok (value 8 ds)
  | _ =>
    match positive? s with
    | some ds => some (decimal ds (value 10 ds))
    | none =>
      if (positive? ((fields ':' s).headD [])).isNone then none
      else (sixties? s).map fun (lead, places) => decimal lead (inSixties (value 10 lead) places)

/-! ### Numbers with a fraction -/

/-- The exponent of a number: a sign, which may be left out only where `bare` allows it, and
digits. -/
def exponent? (bare : Bool) (s : List Char) : Option Int :=
  let (negative, ds) := cutSign s
  if ds ≠ [] ∧ ds.all isPlainDigit ∧ (bare ∨ ds.length < s.length) then
    let n : Int := (value 10 ((digits? 10 ds).getD []) : Nat)
    some (if negative then -n else n)
  else none

/-- The number with the digits of `whole` and `part` around its point, times a power of ten. A
number far below the least or beyond the greatest one needs no more than that to be known. -/
def scaled (whole part : List Nat) (exponent : Int) : String :=
  let n := value 10 (whole ++ part)
  let place := exponent - part.length
  let size : Int := ((Nat.toDigits 10 n).length : Int) + place
  if n = 0 ∨ size < -400 then "0.0"
  else if 400 < size then "inf"
  else
    let (up, down) := Binary64.power 10 place
    ((Binary64.ofFraction? (n * up) down).map toString).getD "inf"

/-- The parts of a number before and behind its exponent mark, if it has one. -/
def cutExponent (s : List Char) : List Char × Option (List Char) :=
  match s.span fun c => c != 'e' && c != 'E' with
  | (before, _ :: after) => (before, some after)
  | (before, []) => (before, none)

/-- What is reported about a numeral with a point and underscores only. -/
def pointError (s : List Char) : String :=
  "could not convert string to float: " ++
    String.ofList (quoted ((s.filter (· != '_')).map Char.toLower))

/-- The text of a number with a fraction or an exponent, without its sign. -/
def fraction? (signed : Bool) (s : List Char) : Option (Except String String) :=
  let (body, exponent) := cutExponent s
  let exponentOr (bare : Bool) : Option Int :=
    match exponent with
    | none => some 0
    | some e => exponent? bare e
  match cutFirst? '.' body with
  | none => do
    let whole ← if body.head?.any isPlainDigit && exponent.isSome then digits? 10 body else none
    return .ok (scaled whole [] (← exponentOr true))
  | some ([], part) => do
    if signed then none
    let fraction ← digits? 10 part
    let exponent ← exponentOr false
    return if fraction = [] then .error (pointError s) else .ok (scaled [] fraction exponent)
  | some (whole, part) => do
    let fraction ← if part = [] then some [] else digits? 10 part
    if !whole.head?.any isPlainDigit then none
    match digits? 10 whole with
    | some whole => return .ok (scaled whole fraction (← exponentOr true))
    | none =>
      if exponent.isSome then none
      let (lead, places) ← sixties? whole
      let sixties := inSixties (value 10 lead) places
      return .ok (scaled ((Nat.toDigits 10 sixties).map fun c => c.toNat - 48) fraction 0)

/-- The text of a number with a fraction, also of the infinite ones and of what is no number. -/
def float? (s : List Char) : Option (Except String String) :=
  let (negative, body) := cutSign s
  let signed := body.length < s.length
  let text := String.ofList body
  if text ∈ [".inf", ".Inf", ".INF"] then some (.ok (if negative then "-inf" else "inf"))
  else if !signed && text ∈ [".nan", ".NaN", ".NAN"] then some (.ok "nan")
  else (fraction? signed body).map fun t => t.map fun t => if negative then "-" ++ t else t

/-! ### Reading -/

/-- The value of a plain scalar. -/
def ofPlain (s : List Char) : Except ReadError Scalar :=
  let text := String.ofList s
  if text ∈ nullForms then .ok .null
  else if text ∈ trueForms then .ok (.bool true)
  else if text ∈ falseForms then .ok (.bool false)
  else if text ∈ markForms then .error (.value "could not determine a constructor")
  else
    let (negative, body) := cutSign s
    match natural? body, float? s with
    | some (.ok n), _ => .ok (.int (if negative then -(n : Int) else n))
    | some (.error e), _ => .error (.numeral e)
    | none, some (.ok t) => .ok (.float t)
    | none, some (.error e) => .error (.numeral e)
    | none, none => .ok (.text text)

end Scalar

end Galley.Yaml
