import Galley.Program.Start

/-!
# Cleanup of byproducts

A `Cleanup` knows which document's byproducts are to be removed and whether its logs are kept.
`Cleanup.run` removes them and forgets the document, so that running it again does nothing until
the next `start`; keeping the logs is for good. What cannot be removed is logged and left.
-/

namespace Galley

/-- The state of a cleanup. -/
structure Cleanup where
  /-- The document without its suffix, if there is one to clean up after. -/
  base : Option Path := none
  /-- Whether the logs are kept. -/
  keepsLogs : Bool := false
  deriving DecidableEq, Repr

namespace Cleanup

/-- The suffixes of byproducts that are always removed. -/
def auxiliarySuffixes : List String := [".out", ".aux"]

/-- The suffix of the bibliography, which is removed only if it can be made again. -/
def bibliographySuffix : String := ".bbl"

/-- The suffix of what the bibliography is made from. -/
def bibliographySourceSuffix : String := ".bib"

/-- The suffixes of the logs. -/
def logSuffixes : List String := [".blg", ".log"]

/-- Takes charge of the byproducts of a document. -/
def start (c : Cleanup) (here target : Path) : Cleanup :=
  { c with base := some (here.join (target.parent.child target.stem)) }

/-- Keeps the logs from now on. -/
def keepLogs (c : Cleanup) : Cleanup := { c with keepsLogs := true }

/-- Whether there is a document to clean up after. -/
def active (c : Cleanup) : Bool := c.base.isSome

/-- The byproduct of a suffix. -/
def byproduct? (base : Path) (suffix : String) : Option Path :=
  base.withName? (base.name ++ suffix)

/-- Work of a cleanup: it stops when a byproduct has no name. -/
abbrev CleanupWork (α : Type) : Type := ExceptT Unit (Work Note Tree) α

/-- Removes the byproduct of a suffix. Gives its name if it was there. -/
def removeByproduct (here base : Path) (suffix : String) : CleanupWork (List String) := do
  match byproduct? base suffix with
  | none => throw ()
  | some p =>
    let t ← Chore.tree
    match t.remove here p with
    | .ok t' =>
      Chore.setTree t'
      return [p.name]
    | .error ⟨.notFound, _⟩ => return []
    | .error e =>
      Chore.log .error ("Unable to remove " ++ toString p ++ ": " ++ e.message)
      return []

/-- Removes the byproducts of several suffixes, adding to the names removed before. -/
def removeByproducts (here base : Path) (removed : List String) :
    List String → Chore (List String × Bool)
  | [] => return (removed, true)
  | suffix :: rest => do
    match ← (removeByproduct here base suffix).run with
    | .ok names => removeByproducts here base (removed ++ names) rest
    | .error () => return (removed, false)

/-- The suffixes whose byproducts are removed: the bibliography only if its source is there, the
logs unless they are kept. -/
def dueSuffixes (c : Cleanup) (t : Tree) (here base : Path) : List String :=
  auxiliarySuffixes ++
    (if (byproduct? base bibliographySourceSuffix).any (t.contains here) then
      [bibliographySuffix] else []) ++
    (if c.keepsLogs then [] else logSuffixes)

/-- Removes the byproducts of the document and forgets it. Gives the names of what was removed. -/
def run (c : Cleanup) (here : Path) : Chore (List String × Cleanup) := do
  match c.base with
  | none => return ([], c)
  | some base => do
    let t ← Chore.tree
    let (removed, complete) ← removeByproducts here base [] (c.dueSuffixes t here base)
    if !complete then
      Chore.log .error
        ("Unexpected error during cleanup of " ++ toString base ++ ": " ++ base.valueText ++
          " has an empty name")
    if removed ≠ [] then
      Chore.log .debug ("Cleaned up: " ++ ", ".intercalate removed)
    return (removed, { c with base := none })

end Cleanup

end Galley
