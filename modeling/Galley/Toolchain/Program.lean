import Galley.Directives
import Galley.Settings.Basic
import Galley.Text.Lower
import Galley.Text.Trim
import Galley.Path

/-!
# The TeX program of a document

A document may choose its TeX program by a directive; otherwise the settings do. Only the
programs of `supported` are accepted, in any case, and the one that is chosen has to be installed.
-/

namespace Galley.TexProgram

open Text

/-- The TeX programs that a document may choose. -/
def supported : List String := ["pdflatex", "xelatex", "lualatex"]

/-- The keys of the directives that choose the TeX program, the first that is given winning. -/
def directiveKeys : List String := ["tex program", "tex ts-program"]

/-- The value of a directive, unless it is empty. -/
def chosen? (d : Directives) (key : String) : Option String := (d.get? key).filter (· != "")

/-- The name of the program that is asked for. -/
def requested (d : Directives) (s : Settings) : String :=
  match directiveKeys.findSome? (chosen? d) with
  | some value => String.ofList (trim value.toList)
  | none => s.latexProgram

/-- Why a document has no TeX program. -/
inductive Problem where
  | unsupported (program : String)
  | missing (program : String)
  deriving DecidableEq, Repr

/-- The text of a problem. -/
def Problem.message : Problem → String
  | .unsupported program =>
    "Unknown LaTeX program type '" ++ program ++ "' specified (valid types are " ++
      ", ".intercalate supported ++ ")"
  | .missing program => "Unable to find " ++ program ++ " (please install TeX before compiling)"

/-- The lower-case name of the program that is asked for, if it is one that may be chosen. -/
def supportedName (d : Directives) (s : Settings) : Except Problem String :=
  if lower (requested d s) ∈ supported then .ok (lower (requested d s))
  else .error (.unsupported (requested d s))

/-- The absolute path of a program, given where it was found. -/
def absolute (here : Path) (name : String) : Option String → Except Problem Path
  | none => .error (.missing name)
  | some found => .ok (here.join (Path.ofString found))

/-- The absolute path of a document's TeX program, `which` being the way to look one up. -/
def locate (here : Path) (which : String → Option String) (d : Directives) (s : Settings) :
    Except Problem Path := do
  let name ← supportedName d s
  absolute here name (which name)

end Galley.TexProgram
