import Galley.Text.Trim

/-!
# Paths

A path is an anchor and the components behind it. Reading a path drops the empty components and
the single dots, so that the spellings `a//b`, `a/./b` and `a/b/` are one path; a component `..`
is kept until the path is *normalized*. Exactly two slashes in front are an anchor of their own,
while three or more are the plain root.

The last component is the **name**. Its **suffix** starts at the last dot, provided something
stands on both sides of that dot, and the **stem** is what comes before the suffix.
-/

namespace Galley

open Text

/-- What a path starts from. -/
inductive Anchor where
  /-- The current directory. -/
  | here
  /-- The root, written as one slash, or as three or more. -/
  | root
  /-- The root, written as exactly two slashes. -/
  | twoSlashes
  deriving DecidableEq, Repr

/-- The spelling of an anchor. -/
def Anchor.text : Anchor → String
  | .here => ""
  | .root => "/"
  | .twoSlashes => "//"

/-- A path: an anchor and the components behind it. -/
structure Path where
  anchor : Anchor
  parts : List String
  deriving DecidableEq, Repr

namespace Path

/-! ### Reading and printing -/

/-- The anchor that a spelling starts with. -/
def anchorOf : List Char → Anchor
  | '/' :: '/' :: '/' :: _ => .root
  | '/' :: '/' :: _ => .twoSlashes
  | '/' :: _ => .root
  | _ => .here

/-- The components of a spelling: what stands between slashes, without empty ones and single
dots. -/
def partsOf (s : List Char) : List String :=
  ((fields '/' s).filter fun w => w != [] && w != ['.']).map String.ofList

/-- Reads a path. -/
def ofString (s : String) : Path := ⟨anchorOf s.toList, partsOf s.toList⟩

/-- The spelling of a path; the empty path is a single dot. -/
protected def toString (p : Path) : String :=
  if p.anchor = .here ∧ p.parts = [] then "." else p.anchor.text ++ "/".intercalate p.parts

instance : ToString Path := ⟨Path.toString⟩

/-! ### Components -/

/-- The last component, or nothing. -/
def name (p : Path) : String := p.parts.getLastD ""

/-- A name cut before its suffix. -/
def cutSuffix (name : String) : String × String :=
  match cutLast? '.' name.toList with
  | some (c :: before, d :: after) =>
    (String.ofList (c :: before), String.ofList ('.' :: d :: after))
  | _ => (name, "")

/-- The name without its suffix. -/
def stem (p : Path) : String := (cutSuffix p.name).1

/-- The suffix of the name, with its dot, or nothing. -/
def suffix (p : Path) : String := (cutSuffix p.name).2

/-- The path without its last component. -/
def parent (p : Path) : Path := { p with parts := p.parts.dropLast }

/-- Whether a path starts from the root. -/
def isAbsolute (p : Path) : Bool := p.anchor != .here

/-- The path `q` read from the directory `p`: `q` itself if it is absolute. -/
def join (p q : Path) : Path :=
  match q.anchor with
  | .here => { p with parts := p.parts ++ q.parts }
  | _ => q

/-- The path of a spelling read from the directory `p`. -/
def child (p : Path) (name : String) : Path := p.join (ofString name)

/-- The path next to `p` that has its stem followed by `ending`. -/
def sibling (p : Path) (ending : String) : Path := p.parent.child (p.stem ++ ending)

/-- The path with another name, if there is a name to replace. -/
def withName? (p : Path) (name : String) : Option Path :=
  if p.parts = [] then none else some { p with parts := p.parts.dropLast ++ [name] }

/-! ### Normal form -/

/-- Removes each `..` together with the component before it. `kept` are the components so far,
last first. Above the root a `..` is dropped, and in front of a relative path it is kept. -/
def normalizeParts (anchored : Bool) (kept : List String) : List String → List String
  | [] => kept.reverse
  | part :: rest =>
    if part ≠ ".." then normalizeParts anchored (part :: kept) rest
    else
      match kept with
      | [] => normalizeParts anchored (if anchored then [] else [".."]) rest
      | last :: before =>
        if last = ".." then normalizeParts anchored (".." :: kept) rest
        else normalizeParts anchored before rest

/-- The path without `..`, except in front of a relative path. -/
def normalize (p : Path) : Path := { p with parts := normalizeParts p.isAbsolute [] p.parts }

/-- The normal form of a spelling read from the directory `base`. -/
def resolveIn (base : Path) (name : String) : Path := (base.child name).normalize

/-- The absolute path that `p` denotes from the directory `here`, without `..` and with a single
slash in front. -/
def locate (here p : Path) : Path := { (here.join p).normalize with anchor := .root }

/-- Whether a name on the way has a NUL in it, with which a file system takes no path. -/
def hasNul (p : Path) : Bool := p.parts.any (·.toList.contains '\x00')

/-! ### Relative paths -/

/-- What is left of a list behind another one that it starts with. -/
def partsBehind? : List String → List String → Option (List String)
  | [], parts => some parts
  | _ :: _, [] => none
  | b :: bs, part :: parts => if b = part then partsBehind? bs parts else none

/-- The path `p` as seen from the directory `base`, if `p` starts with it. -/
def relativeTo? (p base : Path) : Option Path :=
  if p.anchor = base.anchor then (partsBehind? base.parts p.parts).map fun rest => ⟨.here, rest⟩
  else none

/-- The path with a leading `home` written as a tilde, or the path as it is elsewhere. -/
def aliased (p home : Path) : String :=
  match p.relativeTo? home with
  | some rest => toString ({ rest with parts := "~" :: rest.parts } : Path)
  | none => toString p

end Path

end Galley
