import Galley.Yaml.Node
import Galley.Yaml.Scalar

/-!
# Reading YAML documents

The value of a node: scalars are read by their form, and the keys of a mapping are scalars. No
text may be a key twice in one mapping.
-/

namespace Galley.Yaml

/-- The value of a scalar node. -/
def Scalar.ofText (plain : Bool) (text : List Char) : Except ReadError Scalar :=
  if plain then Scalar.ofPlain text else .ok (.text (String.ofList text))

namespace Node

/-- The value of a key. A mark that asks for a default value stands for itself here. -/
def key : Node → Except ReadError Scalar
  | .scalar plain text =>
    if plain && text == ['='] then .ok (.text "=") else Scalar.ofText plain text
  | _ => .error (.value "found unhashable key")

/-- Whether a text is among the keys of a mapping. -/
def hasText (s : Scalar) (pairs : List (Scalar × Value)) : Bool :=
  (s matches .text _) && pairs.any (·.1 == s)

mutual

/-- The value of a node. -/
def value : Node → Except ReadError Value
  | .scalar plain text => do return .scalar (← Scalar.ofText plain text)
  | .list items => do return .list (← values items)
  | .map pairs => do return .map (← valuePairs pairs)

/-- The values of nodes. -/
def values : List Node → Except ReadError (List Value)
  | [] => return []
  | n :: rest => do
    let v ← value n
    return v :: (← values rest)

/-- The keys and values of a mapping. -/
def valuePairs : List (Node × Node) → Except ReadError (List (Scalar × Value))
  | [] => return []
  | (k, n) :: rest => do
    let k ← key k
    let v ← value n
    let more ← valuePairs rest
    if hasText k more then throw (.value "found duplicate key")
    return (k, v) :: more

end

end Node

/-- The value of a text, or nothing if the text is empty. -/
def Value.read (text : List Char) : Except ReadError (Option Value) := do
  match ← Node.read text with
  | some n => return some (← n.value)
  | none => return none

end Galley.Yaml
