/-!
# Settings

The preferences that a compilation consults. They are loaded in layers, see `Settings.load`.
-/

namespace Galley

/-- Preferences of a compilation. -/
structure Settings where
  /-- Whether the TeX program may run shell commands. -/
  shellEscape : Bool := false
  /-- Whether texi2dvi is used where it is installed. -/
  preferTexi2dvi : Bool := true
  /-- Whether byproducts are removed after a compilation. -/
  cleanOutput : Bool := true
  /-- The TeX program of documents that do not choose one. -/
  latexProgram : String := "pdflatex"
  /-- The weave engine of documents that do not choose one. -/
  weaveEngine : String := "Sweave"
  /-- The program that runs weave engines. -/
  rscript : String := "Rscript"
  /-- How often the TeX program may run over one document. -/
  maxPasses : Int := 10
  /-- The suffixes of documents that are woven first, in lower case. -/
  literateExtensions : List String := [".rnw", ".snw", ".nw"]
  deriving DecidableEq, Repr

end Galley
