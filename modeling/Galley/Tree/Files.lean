import Galley.Path
import Galley.Tree.Basic
import Galley.Tree.Fault

/-!
# Files and directories by path

A path is followed name by name from the root, or from the current directory `here` if it is
relative. Each name but the last has to be a directory, and `..` leads one directory up.
-/

namespace Galley.Tree

/-! ### Finding -/

/-- The place that names lead to from a place. What a name is looked up in has to be a
directory; the last name need not be there. -/
def walk (t : Tree) (place : Place) : List String → Except Fault Place
  | [] => .ok place
  | name :: rest =>
    match t.node? place with
    | none => .error .notFound
    | some (.file _ _) => .error .notADirectory
    | some .directory => walk t (if name = ".." then place.dropLast else place ++ [name]) rest

/-- The place of a path. -/
def place (t : Tree) (here p : Path) : Except Fault Place := t.walk [] (here.join p).parts

/-- The node that a path leads to, with its place. -/
def find (t : Tree) (here p : Path) : Except Fault (Place × Node) := do
  let place ← t.place here p
  match t.node? place with
  | some node => return (place, node)
  | none => throw .notFound

/-- Whether anything stands at a path. -/
def contains (t : Tree) (here p : Path) : Bool := (t.find here p).isOk

/-- Whether a directory stands at a path. -/
def isDirectory (t : Tree) (here p : Path) : Bool :=
  match t.find here p with
  | .ok (_, .directory) => true
  | _ => false

/-- Whether a program stands at a path. -/
def isProgram (t : Tree) (here p : Path) : Bool :=
  match t.find here p with
  | .ok (_, .file _ true) => true
  | _ => false

/-- The content of a file. -/
def read (t : Tree) (here p : Path) : Except FileError (List UInt8) :=
  match t.find here p with
  | .ok (_, .file content _) => .ok content
  | .ok (_, .directory) => .error ⟨.isADirectory, toString p⟩
  | .error fault => .error ⟨fault, toString p⟩

/-- What can be read is there. -/
theorem contains_of_read {t : Tree} {here p : Path} {content : List UInt8}
    (h : t.read here p = .ok content) : t.contains here p = true := by
  rw [read] at h
  rw [contains]
  cases hf : t.find here p with
  | error fault => simp [hf] at h
  | ok found => rfl

/-- The nodes below a place, each with the names that lead to it from there. -/
def below (t : Tree) (place : Place) : List (Place × Node) :=
  t.nodes.toList.filterMap fun (q, node) =>
    match Path.partsBehind? place q with
    | some [] => none
    | some rest => some (rest, node)
    | none => none

/-- The names of the nodes that stand in a directory, in order. -/
def names (t : Tree) (here p : Path) : List String :=
  match t.find here p with
  | .ok (place, _) =>
    (t.below place).filterMap fun (rest, _) =>
      match rest with
      | [name] => some name
      | _ => none
  | .error _ => []

/-! ### Changing -/

/-- Puts a node at a place, unless a directory stands there. -/
def putAt (t : Tree) (place : Place) (node : Node) : Except Fault Tree :=
  if hd : t.node? place.dropLast = some .directory then
    if hn : place = [] ∨ t.node? (place.dropLast ++ [place.getLastD ""]) = some .directory then
      .error .isADirectory
    else
      .ok (t.put place.dropLast (place.getLastD "") node hd fun h => absurd (.inr h) hn)
  else .error .notFound

/-- Writes a file. A file that is there keeps being a program if it was one. -/
def write (t : Tree) (here p : Path) (content : List UInt8) : Except FileError Tree :=
  (do
    let place ← t.place here p
    match t.node? place with
    | some (.file _ executable) => t.putAt place (.file content executable)
    | _ => t.putAt place (.file content false)).mapError (⟨·, toString p⟩)

/-- Adds text to the end of a file. -/
def append (t : Tree) (here p : Path) (content : List UInt8) : Except FileError Tree :=
  match t.read here p with
  | .ok before => t.write here p (before ++ content)
  | .error _ => t.write here p content

/-- Writes an empty program. -/
def install (t : Tree) (here p : Path) : Except FileError Tree :=
  (do t.putAt (← t.place here p) (.file [] true)).mapError (⟨·, toString p⟩)

/-- Takes a file away. -/
def remove (t : Tree) (here p : Path) : Except FileError Tree :=
  match t.place here p with
  | .error fault => .error ⟨fault, toString p⟩
  | .ok place =>
    if t.node? place = none then .error ⟨.notFound, toString p⟩
    else if h : t.node? place = some .directory then .error ⟨.isADirectory, toString p⟩
    else .ok (t.erase place h)

/-- Takes away what stands at a path, with everything below it, if anything stands there. -/
def removeAll (t : Tree) (here p : Path) : Tree :=
  match t.find here p with
  | .ok (place, _) => t.prune place
  | .error _ => t

/-- Makes a directory where nothing stands. -/
def makeDirectory (t : Tree) (here p : Path) : Except Fault Tree := do
  let place ← t.place here p
  if (t.node? place).isSome then throw .alreadyThere
  t.putAt place .directory

/-- Makes a directory and those above it that are missing; `names` are the components of its
path, last first. A directory that is there already is welcome. -/
def makeDirectoriesAt (t : Tree) (here : Path) (anchor : Anchor) :
    List String → Except FileError Tree
  | [] => .ok t
  | name :: above =>
    let p : Path := ⟨anchor, (name :: above).reverse⟩
    let settle (t : Tree) (fault : Fault) : Except FileError Tree :=
      if t.isDirectory here p then .ok t else .error ⟨fault, toString p⟩
    match t.makeDirectory here p with
    | .ok t => .ok t
    | .error .notFound => do
      -- something above is missing, so it is made first
      let t ← makeDirectoriesAt t here anchor above
      match t.makeDirectory here p with
      | .ok t => .ok t
      | .error fault => settle t fault
    | .error fault => settle t fault

/-- Makes a directory and those above it that are missing. -/
def makeDirectories (t : Tree) (here p : Path) : Except FileError Tree :=
  t.makeDirectoriesAt here p.anchor p.parts.reverse

/-- Writes a file, or makes a directory if there is no content, with the directories above it. -/
def provide (t : Tree) (here p : Path) : Option (List UInt8) → Except FileError Tree
  | none => t.makeDirectories here p
  | some content => do
    let t ← t.makeDirectories here p.parent
    t.write here p content

end Galley.Tree
