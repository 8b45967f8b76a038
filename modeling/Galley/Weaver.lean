import Galley.Concordance.File
import Galley.Crash
import Galley.Directives
import Galley.Program.Start
import Galley.Settings.Basic

/-!
# Weaving

A literate document is woven by R: an engine turns it into a TeX document of the same stem and
writes a concordance next to it. Weaving fails with a reason; a concordance that cannot be read
costs no more than a warning.

The name of the document is handed to R as a string in single quotes, `RString.escape` being what
keeps it inside the quotes.
-/

namespace Galley

open Text

/-- The ways to weave a document. -/
inductive WeaveEngine where
  | sweave
  | knitr
  deriving DecidableEq, Repr

/-- One character of a string in single quotes. -/
def RString.escapeChar (c : Char) : List Char := if c = '\\' ∨ c = '\'' then ['\\', c] else [c]

/-- A text as it stands in single quotes. -/
def RString.escape (s : List Char) : List Char := s.flatMap RString.escapeChar

namespace WeaveEngine

/-- The engine of a name, in any case. -/
def ofName? (name : String) : Option WeaveEngine :=
  if lower name = "sweave" then some .sweave
  else if lower name = "knitr" then some .knitr
  else none

/-- The expression up to the name of the document. -/
def opening : WeaveEngine → String
  | .sweave => "utils::Sweave('"
  | .knitr => "knitr::opts_knit$set(concordance = TRUE); knitr::knit('"

/-- The expression behind the name of the document. -/
def closing : WeaveEngine → String
  | .sweave => "', concordance = TRUE)"
  | .knitr => "')"

/-- The expression that weaves a document. -/
def expression (e : WeaveEngine) (document : String) : String :=
  e.opening ++ String.ofList (RString.escape document.toList) ++ e.closing

/-- The directive that chooses the engine. -/
def directiveKey : String := "rnw weave"

/-- The name of the engine that is asked for. -/
def requested (d : Directives) (s : Settings) : String :=
  ((d.get? directiveKey).filter (· != "")).getD s.weaveEngine

end WeaveEngine

/-- How weaving ends. -/
inductive WeaveResult where
  | woven (tex : Path) (concordance : Concordance)
  | failed (reason : String)
  deriving DecidableEq, Repr

/-- What weaves documents. -/
abbrev Weaver : Type := Path → Directives → ExceptT Crash (Work Note Tree) WeaveResult

namespace Weaver

/-- Reads what a successful engine wrote. -/
def collect (here target : Path) : ExceptT Crash (Work Note Tree) WeaveResult := do
  let tex := target.sibling ".tex"
  let t ← Chore.tree
  if !t.contains here tex then
    return .failed ("Weaving " ++ target.name ++ " did not produce " ++ tex.name)
  match Concordance.load t here (Concordance.fileFor target) with
  | .ok concordance => return .woven tex concordance
  | .error (.entry .offsetMissing) => throw .offsetMissing
  | .error e =>
    Chore.logWeaving .warning
      ("Ignoring unreadable concordance for " ++ target.name ++ ": " ++ e.message)
    return .woven tex .empty

/-- Runs an engine over a document with the R program that was found. -/
def runEngine (here : Path) (programs : Programs) (name : String) (engine : WeaveEngine)
    (rscript : String) (target : Path) : ExceptT Crash (Work Note Tree) WeaveResult := do
  let expression := engine.expression target.name
  Chore.logWeaving .info ("Weaving " ++ target.name ++ " with " ++ name)
  Chore.logWeaving .debug ("  " ++ rscript ++ " -e \"" ++ expression ++ "\"")
  let ending ←
    (Chore.start programs.bytes ⟨[rscript, "-e", expression], some target.parent, none⟩ : Chore _)
  match ending with
  | .refused reason => return .failed ("Unable to run " ++ name ++ ": " ++ reason)
  | .broken message => throw (.other message)
  | .exited status output errors =>
    if status = 0 then collect here target
    else
      Chore.logWeaving .debug (String.ofList (utf8Lossy output))
      let reason := String.ofList (trim (utf8Lossy errors))
      if reason ≠ "" then return .failed reason
      else
        return .failed
          ("Error weaving " ++ target.name ++ " (exit code " ++ toString status ++ ")")

/-- The weaver that runs R. -/
def viaR (host : Host) (programs : Programs) (s : Settings) : Weaver := fun target d => do
  let name := WeaveEngine.requested d s
  match WeaveEngine.ofName? name with
  | none =>
    return .failed
      ("Unknown Rnw weave method '" ++ name ++
        "' specified (valid values are Sweave and knitr)")
  | some engine =>
    match host.which (← Chore.tree) s.rscript with
    | none => return .failed ("Unable to find " ++ s.rscript ++ " (is R installed?)")
    | some rscript => runEngine host.here programs name engine rscript target

end Weaver

end Galley
