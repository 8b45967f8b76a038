import Galley.Host
import Galley.Settings.Library

/-!
# Loading settings

Settings are resolved in layers: the defaults, a settings file, and the variables of the
environment, a later layer prevailing over an earlier one field by field.

The settings file is the one that is asked for, else the one that the variable `QUIRE_CONFIG`
names. A variable that is empty counts as missing.
-/

namespace Galley

open Text

/-- Why settings cannot be loaded. -/
inductive SettingsError where
  /-- The settings file is not there. -/
  | missing (file : Path)
  /-- The settings file cannot be read. -/
  | file (e : FileError)
  /-- The library raised an error. -/
  | library (e : LibraryError)
  deriving DecidableEq, Repr

/-- The text of an error. -/
def SettingsError.message : SettingsError → String
  | .missing p => "Settings file not found: " ++ toString p
  | .file e => e.message
  | .library e => e.message

namespace Settings

/-! ### The environment -/

/-- The variable that names the settings file. -/
def fileVariable : String := "QUIRE_CONFIG"

/-- The settings file: the one that is asked for, else the one that the environment names. -/
def file? (e : Environment) (asked : Option Path) : Option Path :=
  asked.or ((e.nonempty? fileVariable).map Path.ofString)

/-- What the environment gives. -/
def environmentLayer (e : Environment) : SettingsLayer :=
  Field.all.filterMap fun f => do
    let value ← e.nonempty? (← f.variableName?)
    return (.text f.name, .scalar (.text value))

/-! ### Loading -/

/-- The settings with their literate extensions in lower case. -/
def lowered (s : Settings) : Settings :=
  { s with literateExtensions := s.literateExtensions.map lower }

variable (l : SettingsLibrary)

/-- A configuration with the values of a settings file. -/
def withFile (t : Tree) (here file : Path) (c : l.Config) : Except SettingsError l.Config := do
  if !t.contains here file then throw (.missing file)
  -- the file is opened by its full path, which is what an error shows
  let bytes ← (t.read here (here.join file).normalize).mapError .file
  let overlay ← (l.load bytes).mapError .library
  (l.merge c overlay).mapError .library

/-- A configuration with the values of the environment, which are merged only if there are any. -/
def withEnvironment (e : Environment) (c : l.Config) : Except SettingsError l.Config := do
  if (environmentLayer e).isEmpty then return c
  let overlay ← (l.create (environmentLayer e)).mapError .library
  (l.merge c overlay).mapError .library

/-- Loads settings. -/
def load (h : Host) (t : Tree) (asked : Option Path) : Except SettingsError Settings := do
  let c := l.ofSettings {}
  let c ←
    match file? h.environment asked with
    | some file => withFile l t h.here file c
    | none => .ok c
  let c ← withEnvironment l h.environment c
  let s ← (l.toSettings c).mapError .library
  return s.lowered

end Settings

end Galley
