import Galley.Tree.Files

/-!
# Host

What a run finds around it and does not change: the current directory and the variables of the
environment. Programs are looked up along the variable `PATH`, and `HOME` names the home
directory.
-/

namespace Galley

open Text

/-- Variables with their values. -/
structure Environment where
  pairs : List (String × String) := []
  deriving DecidableEq, Repr

namespace Environment

/-- The value of a variable. -/
def get? (e : Environment) (name : String) : Option String := e.pairs.lookup name

/-- The environment with a variable set. -/
def set (e : Environment) (name value : String) : Environment :=
  ⟨(name, value) :: e.pairs.filter (·.1 != name)⟩

/-- The value of a variable, unless it is empty. -/
def nonempty? (e : Environment) (name : String) : Option String :=
  (e.get? name).filter (· != "")

@[simp]
theorem get?_set (e : Environment) (name value other : String) :
    (e.set name value).get? other = if other = name then some value else e.get? other := by
  obtain ⟨pairs⟩ := e
  by_cases h : other = name
  · simp [set, get?, h]
  · have hb : (other == name) = false := by simpa using h
    simp only [set, get?, List.lookup_cons, hb, if_neg h]
    induction pairs with
    | nil => rfl
    | cons pair rest ih =>
      obtain ⟨n, v⟩ := pair
      by_cases hn : n = name
      · have : (other == n) = false := by simpa [hn] using h
        simpa [hn, List.lookup_cons, hb] using ih
      · by_cases ho : other = n
        · simp [hn, ho]
        · have : (other == n) = false := by simpa using ho
          simpa [hn, List.lookup_cons, this] using ih

end Environment

/-- Where a run takes place. -/
structure Host where
  /-- The current directory. -/
  here : Path
  environment : Environment := {}
  deriving DecidableEq, Repr

namespace Host

/-- Whether a spelling can only mean a directory: it ends with a slash or a single dot. -/
def meansDirectory (spelling : String) : Bool :=
  ((fields '/' spelling.toList).getLast?.all fun last => last == [] || last == ['.'])

/-- Whether a spelling names a program. -/
def isProgram (h : Host) (t : Tree) (spelling : String) : Bool :=
  !meansDirectory spelling && t.isProgram h.here (Path.ofString spelling)

/-- A name behind a directory of the search path. An empty entry of the search path is the
current directory. -/
def spellIn (directory name : String) : String :=
  if directory = "" ∨ directory.toList.getLast? = some '/' then directory ++ name
  else directory ++ "/" ++ name

/-- Looks up a program: a name with a slash is a path already, any other name is searched for in
the directories of `PATH`. -/
def which (h : Host) (t : Tree) (name : String) : Option String :=
  if name.toList.contains '/' then
    if h.isProgram t name then some name else none
  else
    match h.environment.nonempty? "PATH" with
    | none => none
    | some search =>
      ((fields ':' search.toList).map fun d => spellIn (String.ofList d) name).find? (h.isProgram t)

/-- The home directory. There is none if the variable for it starts with a tilde. -/
def home? (h : Host) : Option Path :=
  let spelling := ((h.environment.get? "HOME").getD "").toList
  let bare := (spelling.reverse.dropWhile (· == '/')).reverse
  if bare.head? = some '~' then none
  else some (Path.ofString (if bare = [] then "/" else String.ofList bare))

end Host

/-- What is reported when there is no home directory. -/
def homelessMessage : String := "Could not determine home directory."

end Galley
