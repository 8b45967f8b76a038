/-!
# Values of YAML documents

A document holds a scalar, a list or a mapping. The keys of a mapping are scalars.
-/

namespace Galley.Yaml

/-- The value of a scalar. -/
inductive Scalar where
  | null
  | bool (b : Bool)
  | int (n : Int)
  /-- A number with a fraction, as it is written. -/
  | float (text : String)
  | text (s : String)
  | bytes (content : List UInt8)
  deriving DecidableEq, Repr

/-- The value of a document. -/
inductive Value where
  | scalar (s : Scalar)
  | list (items : List Value)
  | map (pairs : List (Scalar × Value))

end Galley.Yaml
