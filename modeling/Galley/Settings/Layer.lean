import Galley.Settings.Field

/-!
# Layers of settings

A layer gives values for fields by their names. Laid over settings it sets these fields, one after
the other; a value that does not fit its field, also one for a field that is set again later, is a
fault of the layer. A value that is three question marks stands for one that is still to be filled
in, and counts as missing.
-/

namespace Galley

/-- What a layer gives: names of fields, as they stand there, with values. -/
abbrev SettingsLayer : Type := List (Yaml.Scalar × Yaml.Value)

/-- Why a layer cannot be laid over settings. -/
inductive LayerFault where
  | unknownKey (key : String)
  /-- A value cannot be converted to the type of its field. -/
  | invalidValue (field : Field)
  /-- A list stands where a mapping is expected, or the reverse. -/
  | container
  deriving DecidableEq, Repr

namespace Settings

/-- What stands for a value that is still to be filled in. -/
def unfilled : String := "???"

/-- Whether a value counts as missing. -/
def isUnfilled : Yaml.Value → Bool
  | .scalar (.text s) => s == unfilled
  | _ => false

/-- The field that a key names. -/
def fieldOf (key : Yaml.Scalar) : Except LayerFault Field :=
  match key with
  | .text name => (Field.ofName? name).elim (.error (.unknownKey name)) .ok
  | key => .error (.unknownKey (key.toText?.getD ""))

/-- The settings with one more value. -/
def set (s : Settings) (f : Field) (v : Yaml.Value) : Except LayerFault Settings :=
  if isUnfilled v then .ok s
  else
    match f.convert v with
    | .ok c => .ok (s.put f c)
    | .error .type => .error (.invalidValue f)
    | .error .container => .error .container

/-- The settings with the values of a layer. The first one that does not fit is reported. -/
def apply (s : Settings) : SettingsLayer → Except LayerFault Settings
  | [] => .ok s
  | (key, v) :: rest => do
    let f ← fieldOf key
    let s ← s.set f v
    s.apply rest

end Settings

end Galley
