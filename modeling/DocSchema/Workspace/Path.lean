import DocSchema.Text.Lines

/-!
# Paths

A path is a way through a tree of directories: from the current directory or from the root, through
directories by their names, where two dots lead one level up. A location is a place in the tree: the
names that lead to it from the root.

## Main definitions

* `Path`, `Path.ofText`, `Path.text`
* `Path.parent`, `Path.join`
* `Location`, `Path.resolve`: the place to which a path leads if every name on it is a directory

## Implementation notes

Empty names and single dots of a written path lead nowhere and are dropped. Exactly two slashes at
the start are kept as they are; more of them count as one.
-/

namespace DocSchema

/-- A place in a tree of directories, as the names on the way from the root. -/
abbrev Location := List String

/-- Where a path starts. -/
inductive Anchor
  /-- The current directory. -/
  | here
  /-- The root. -/
  | root
  /-- The root, written with two slashes. -/
  | doubleRoot
  deriving DecidableEq, Repr

/-- The written form of a start. -/
def Anchor.text : Anchor → String
  | here => ""
  | root => "/"
  | doubleRoot => "//"

/-- A path. -/
structure Path where
  anchor : Anchor
  names : List String
  deriving DecidableEq, Repr

namespace Path

/-- Where a written path starts. -/
def anchorOf : List Char → Anchor
  | '/' :: '/' :: '/' :: _ => .root
  | '/' :: '/' :: _ => .doubleRoot
  | '/' :: _ => .root
  | _ => .here

/-- The names of a written path. -/
def namesOf (cs : List Char) : List String :=
  ((Text.splitAt '/' cs).map String.ofList).filter fun name => name != "" && name != "."

/-- The path that a text denotes. -/
def ofText (s : String) : Path := ⟨anchorOf s.toList, namesOf s.toList⟩

/-- The written form of a path. -/
def text (p : Path) : String :=
  match p.anchor, p.names with
  | .here, [] => "."
  | anchor, names => anchor.text ++ "/".intercalate names

/-- Whether a path starts at the root. -/
def isAbsolute (p : Path) : Bool := p.anchor != .here

/-- The path without its last name. -/
def parent (p : Path) : Path := { p with names := p.names.dropLast }

/-- The last name of a path; empty if there is none. -/
def name (p : Path) : String := p.names.getLastD ""

/-- A path followed from the end of another one. An absolute path is followed from the root. -/
def join (base p : Path) : Path :=
  if p.isAbsolute then p else { base with names := base.names ++ p.names }

/-- The absolute path of a location. -/
def ofLocation (l : Location) : Path := ⟨.root, l⟩

/-- One step on a way: two dots lead up, any other name leads down. -/
def step (l : Location) (name : String) : Location :=
  if name = ".." then l.dropLast else l ++ [name]

/-- Where a path starts, given the current directory. -/
def start (current : Location) (p : Path) : Location := if p.isAbsolute then [] else current

/-- The location to which the names of a path lead. -/
def location (current : Location) (p : Path) : Location :=
  p.names.foldl step (p.start current)

/-- A path as the absolute path of its location. -/
def resolve (current : Location) (p : Path) : Path := ofLocation (p.location current)

theorem resolve_isAbsolute (current : Location) (p : Path) :
    (p.resolve current).isAbsolute = true := rfl

theorem join_of_isAbsolute {p : Path} (h : p.isAbsolute = true) (base : Path) :
    base.join p = p := by
  simp [join, h]

end Path

end DocSchema
