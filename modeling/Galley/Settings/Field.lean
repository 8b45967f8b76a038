import Galley.Settings.Basic
import Galley.Text.Lower
import Galley.Text.Numeral
import Galley.Yaml.Value

/-!
# Fields of the settings

Every field has a name in a settings file, and most have a variable in the environment. A value
given for a field is converted to the type of the field:

* a truth value may also be given as a whole number, where all but zero are true, or as a word;
* a whole number may also be given as a text, but not as a truth value or as a fraction;
* a text may be given as any scalar but nothing and bytes;
* a list is a list of texts.
-/

namespace Galley

open Text

/-- The fields of the settings. -/
inductive Field where
  | shellEscape
  | preferTexi2dvi
  | cleanOutput
  | latexProgram
  | weaveEngine
  | rscript
  | maxPasses
  | literateExtensions
  deriving DecidableEq, Repr

namespace Field

/-- All fields. -/
def all : List Field :=
  [.shellEscape, .preferTexi2dvi, .cleanOutput, .latexProgram, .weaveEngine, .rscript, .maxPasses,
    .literateExtensions]

/-- The name of a field in a settings file. -/
def name : Field → String
  | .shellEscape => "enable_shell_escape"
  | .preferTexi2dvi => "use_texi2dvi"
  | .cleanOutput => "clean_output"
  | .latexProgram => "default_latex_program"
  | .weaveEngine => "default_weave_engine"
  | .rscript => "rscript_program"
  | .maxPasses => "max_passes"
  | .literateExtensions => "literate_extensions"

/-- The field of a name. -/
def ofName? (name : String) : Option Field := all.find? (·.name == name)

/-- The variable of a field. -/
def variableName? : Field → Option String
  | .shellEscape => some "QUIRE_SHELL_ESCAPE"
  | .preferTexi2dvi => some "QUIRE_USE_TEXI2DVI"
  | .cleanOutput => some "QUIRE_CLEAN_OUTPUT"
  | .latexProgram => some "QUIRE_LATEX_PROGRAM"
  | .weaveEngine => some "QUIRE_WEAVE_ENGINE"
  | .rscript => some "QUIRE_RSCRIPT"
  | .maxPasses => some "QUIRE_MAX_PASSES"
  | .literateExtensions => none

end Field

namespace Yaml.Scalar

/-- The words for true. -/
def trueWords : List String := ["yes", "y", "on", "true"]

/-- The words for false. -/
def falseWords : List String := ["no", "n", "off", "false"]

/-- A scalar as a whole number. -/
def toInt? : Scalar → Option Int
  | .int n => some n
  | .text s => (readInt s.toList).toOption
  | _ => none

/-- A text as a truth value. -/
def wordToBool? (s : String) : Option Bool :=
  if lower s ∈ trueWords then some true
  else if lower s ∈ falseWords then some false
  else none

/-- A scalar as a truth value. -/
def toBool? : Scalar → Option Bool
  | .bool b => some b
  | .int n => some (n != 0)
  | .text s =>
    (match readInt s.toList with
    | .ok n => some (n != 0)
    | .error _ => wordToBool? s)
  | _ => none

/-- A scalar as a text. -/
def toText? : Scalar → Option String
  | .null => none
  | .bool b => some (if b then "True" else "False")
  | .int n => writeInt? n
  | .float t => some t
  | .text s => some s
  | .bytes _ => none

end Yaml.Scalar

/-- Why a value does not fit a field. -/
inductive Misfit where
  /-- It cannot be converted to the type of the field. -/
  | type
  /-- It is a mapping where a list is expected. -/
  | container
  deriving DecidableEq, Repr

namespace Field

/-- What a field holds. -/
@[reducible]
def Content : Field → Type
  | .shellEscape => Bool
  | .preferTexi2dvi => Bool
  | .cleanOutput => Bool
  | .latexProgram => String
  | .weaveEngine => String
  | .rscript => String
  | .maxPasses => Int
  | .literateExtensions => List String

/-- A value converted by a conversion of scalars. -/
def convertScalar {α : Type} (convert? : Yaml.Scalar → Option α) : Yaml.Value → Except Misfit α
  | .scalar x => (convert? x).elim (.error .type) .ok
  | _ => .error .type

/-- A value converted to a list of texts. -/
def convertTexts : Yaml.Value → Except Misfit (List String)
  | .list items => items.mapM (convertScalar Yaml.Scalar.toText?)
  | .map _ => .error .container
  | .scalar _ => .error .type

/-- A value converted to what a field holds. -/
def convert : (f : Field) → Yaml.Value → Except Misfit f.Content
  | .shellEscape => convertScalar Yaml.Scalar.toBool?
  | .preferTexi2dvi => convertScalar Yaml.Scalar.toBool?
  | .cleanOutput => convertScalar Yaml.Scalar.toBool?
  | .latexProgram => convertScalar Yaml.Scalar.toText?
  | .weaveEngine => convertScalar Yaml.Scalar.toText?
  | .rscript => convertScalar Yaml.Scalar.toText?
  | .maxPasses => convertScalar Yaml.Scalar.toInt?
  | .literateExtensions => convertTexts

end Field

namespace Settings

/-- What a field of the settings holds. -/
def get (s : Settings) : (f : Field) → f.Content
  | .shellEscape => s.shellEscape
  | .preferTexi2dvi => s.preferTexi2dvi
  | .cleanOutput => s.cleanOutput
  | .latexProgram => s.latexProgram
  | .weaveEngine => s.weaveEngine
  | .rscript => s.rscript
  | .maxPasses => s.maxPasses
  | .literateExtensions => s.literateExtensions

/-- The settings with another content of a field. -/
def put (s : Settings) : (f : Field) → f.Content → Settings
  | .shellEscape, b => { s with shellEscape := b }
  | .preferTexi2dvi, b => { s with preferTexi2dvi := b }
  | .cleanOutput, b => { s with cleanOutput := b }
  | .latexProgram, t => { s with latexProgram := t }
  | .weaveEngine, t => { s with weaveEngine := t }
  | .rscript, t => { s with rscript := t }
  | .maxPasses, n => { s with maxPasses := n }
  | .literateExtensions, l => { s with literateExtensions := l }

end Settings

end Galley
