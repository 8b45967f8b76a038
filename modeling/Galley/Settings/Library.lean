import Galley.Settings.Layer

/-!
# Libraries for settings

Settings files are read by a library that is not a part of this development: it reads a document,
merges what is in it into a configuration, and gives the settings in the end. `SettingsLibrary`
lists what is asked of it. What it does with references from one value to another and with the
rarer parts of the language of its files is its own affair.
-/

namespace Galley

/-- An error that a library raises. -/
structure LibraryError where
  /-- What the library calls it. -/
  name : String
  message : String
  /-- Whether it is the error of a value. -/
  isValue : Bool
  deriving DecidableEq, Repr

/-- A library that reads and merges configurations. -/
structure SettingsLibrary where
  /-- A configuration with the fields of the settings. -/
  Config : Type
  /-- What is merged into a configuration. -/
  Overlay : Type
  /-- The configuration that has given settings for its values. -/
  ofSettings : Settings → Config
  /-- Reads the content of a file. -/
  load : List UInt8 → Except LibraryError Overlay
  /-- Makes an overlay of names with values. -/
  create : SettingsLayer → Except LibraryError Overlay
  /-- What an overlay holds. -/
  content : Overlay → Yaml.Value
  merge : Config → Overlay → Except LibraryError Config
  /-- The settings of a configuration, all references resolved. -/
  toSettings : Config → Except LibraryError Settings

end Galley
