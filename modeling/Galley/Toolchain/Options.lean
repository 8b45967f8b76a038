import Galley.Path

/-!
# Options of a TeX run

The TeX program is started with the same arguments by every driver. Where a driver hands them on
in a variable, they are written as one line of shell words.
-/

namespace Galley

/-- How the TeX program is started. -/
structure TexOptions where
  program : Path
  /-- Errors are reported with the file and line they occur at. -/
  fileLineError : Bool := true
  /-- Data for finding places of the source in the output are written. -/
  synctex : Bool := true
  /-- The program may run shell commands. -/
  shellEscape : Bool := false
  /-- What the program says about its version, or nothing. -/
  version : String := ""
  deriving DecidableEq, Repr

namespace TexOptions

/-- The arguments of the TeX program, the document aside. -/
def arguments (o : TexOptions) : List String :=
  "-interaction=nonstopmode" ::
    ((if o.fileLineError then ["-file-line-error"] else []) ++
      (if o.synctex then ["-synctex=-1"] else []) ++
      (if o.shellEscape then ["-shell-escape"] else []))

end TexOptions

namespace ShellWord

/-- Whether a character means nothing to the shell. -/
def isPlain (c : Char) : Bool := c.isAlphanum || "_@%+=:,./-".toList.contains c

/-- One character between single quotes; a single quote has to be quoted by itself. -/
def quoteChar (c : Char) : List Char := if c = '\'' then "'\"'\"'".toList else [c]

/-- A word as the shell reads it back: in single quotes, unless all its characters are plain. -/
def quote (w : String) : String :=
  if w = "" then "''"
  else if w.toList.all isPlain then w
  else String.ofList ('\'' :: w.toList.flatMap quoteChar ++ ['\''])

end ShellWord

/-- The TeX program and its arguments as one line of shell words. -/
def TexOptions.commandLine (o : TexOptions) : String :=
  " ".intercalate (ShellWord.quote (toString o.program) :: o.arguments)

end Galley
