import Galley.Settings.Library
import Galley.Text.Lines
import Galley.Text.Utf8
import Galley.Yaml.Read

/-!
# Settings documents

A library for settings whose files hold one YAML document each. The document is a mapping from
names of fields to values; an empty one gives no values. Values are taken as they stand: nothing in
them refers to another value.
-/

namespace Galley

open Text

/-- What a library reports about a document that cannot be read. -/
def Yaml.ReadError.libraryError (e : Yaml.ReadError) : LibraryError :=
  match e with
  | .character => ⟨"ReaderError", e.message, false⟩
  | .token _ => ⟨"ScannerError", e.message, false⟩
  | .structure _ => ⟨"ParserError", e.message, false⟩
  | .secondDocument => ⟨"ComposerError", e.message, false⟩
  | .value _ => ⟨"ConstructorError", e.message, false⟩
  | .numeral _ => ⟨"ValueError", e.message, true⟩

/-- What a library reports about a layer at fault. -/
def LayerFault.libraryError : LayerFault → LibraryError
  | .unknownKey key => ⟨"ConfigKeyError", "Key '" ++ key ++ "' is not in the settings", false⟩
  | .invalidValue field =>
    ⟨"ValidationError", "The value of '" ++ field.name ++ "' has the wrong type", true⟩
  | .container => ⟨"TypeError", "Cannot merge incompatible container types", false⟩

namespace SettingsDocument

/-- The error of a file that is not UTF-8. What is missing at its end is found only after all
before it was taken, so that places are counted from there. -/
def encodingError (e : Utf8Error) : LibraryError :=
  let e := if e.flaw = .endOfData then { e with start := 0 } else e
  ⟨"UnicodeDecodeError", e.message, true⟩

/-- The error of a document that is neither a mapping, nor a list, nor a text. -/
def kindError (kind : String) : LibraryError :=
  ⟨"OSError", "Invalid loaded object type: " ++ kind, false⟩

/-- The error of a document that is a text, if that denotes neither of these either. -/
def textError : LibraryError := ⟨"AssertionError", "", false⟩

/-- The error of a mapping one of whose keys is nothing. -/
def emptyKeyError : LibraryError := ⟨"KeyValidationError", "A key is missing", true⟩

/-- What a document gives: a mapping, or a list. A text is a key without a value. -/
def content : Option Yaml.Value → Except LibraryError Yaml.Value
  | none => .ok (.map [])
  | some (.map pairs) =>
    if pairs.any (·.1 == .null) then .error emptyKeyError else .ok (.map pairs)
  | some (.list items) => .ok (.list items)
  | some (.scalar .null) => .ok (.map [])
  | some (.scalar (.bool _)) => .error (kindError "bool")
  | some (.scalar (.int _)) => .error (kindError "int")
  | some (.scalar (.float _)) => .error (kindError "float")
  | some (.scalar (.bytes _)) => .error (kindError "bytes")
  | some (.scalar (.text s)) => .ok (.map [(.text s, .scalar .null)])

/-- Reads the text of a document. A document that is a text itself is read once more. -/
def read (text : List Char) : Except LibraryError Yaml.Value := do
  match ← (Yaml.Value.read text).mapError Yaml.ReadError.libraryError with
  | some (.scalar (.text s)) =>
    match ← (Yaml.Value.read s.toList).mapError Yaml.ReadError.libraryError with
    | some (.scalar (.bool _)) | some (.scalar (.int _)) | some (.scalar (.float _)) =>
      throw textError
    | v => content v
  | v => content v

/-- Reads the content of a file. -/
def load (bytes : List UInt8) : Except LibraryError Yaml.Value := do
  let text ← (utf8 bytes).mapError encodingError
  read (unifyBreaks text)

/-- Settings with the values of a document. -/
def merge (s : Settings) : Yaml.Value → Except LibraryError Settings
  | .map layer => (s.apply layer).mapError LayerFault.libraryError
  | _ => .error LayerFault.container.libraryError

end SettingsDocument

/-- The library that reads settings documents. -/
def SettingsLibrary.documents : SettingsLibrary where
  Config := Settings
  Overlay := Yaml.Value
  ofSettings s := s
  load := SettingsDocument.load
  create layer := .ok (.map layer)
  content v := v
  merge := SettingsDocument.merge
  toSettings s := .ok s

end Galley
