import DocSchema.Calendar
import DocSchema.Workspace.Basic

/-!
# Changing a workspace

An edit changes a workspace and may fail. What it did before it failed stays done.

## Main definitions

* `Edit`, with `Edit.ofExcept` for what only looks at the workspace
* `Edit.makeDirectory`, `Edit.ensureDirectories`: directories, the latter with all that are missing
  on the way
* `Edit.writeFile`: a file is opened and gets a new content
* `Edit.replaceFile`: a file is written under a draft name and takes its place when it is complete

## Implementation notes

The draft of a file is written in the directory to which the names of its path lead, under a name
that is free there. Its name is longer than the name of the file by `draftNameBytes`.
-/

namespace DocSchema

/-- A change of a workspace. -/
abbrev Edit (α : Type) := EStateM FileFault Workspace α

namespace Edit

/-- The result of looking at a workspace. -/
def ofExcept {α : Type} (look : Workspace → Except FileFault α) : Edit α := fun w =>
  match look w with
  | .ok a => .ok a w
  | .error fault => .error fault w

/-- Puts an entry at a location. -/
def put (l : Location) (e : Entry) : Edit Unit := modify fun w => w.put l e

/-! ## Directories -/

/-- Makes a directory at the end of a path, where nothing may be yet. -/
def makeDirectory (p : Path) : Edit Unit := do
  let l ← ofExcept (·.locate p)
  match (← get).find? l with
  | some _ => throw .alreadyExists
  | none => put l .directory

/-- Makes a directory at the end of a path unless there is one. -/
def ensureDirectory (p : Path) : Edit Unit := fun w =>
  match makeDirectory p w with
  | .ok _ w => .ok () w
  | .error fault w => if w.isDirectory p then .ok () w else .error fault w

/-- Makes the directory at the end of a path, whose names are given from the last one on, and all
directories that are missing on the way to it. -/
def ensureFrom (anchor : Anchor) : List String → Edit Unit
  | [] => ensureDirectory ⟨anchor, []⟩
  | name :: outer => fun w =>
    match ensureDirectory ⟨anchor, (name :: outer).reverse⟩ w with
    | .ok _ w => .ok () w
    | .error .missing w =>
      (do ensureFrom anchor outer; ensureDirectory ⟨anchor, (name :: outer).reverse⟩) w
    | .error fault w => .error fault w

/-- Makes the directory at the end of a path and all directories that are missing on the way. -/
def ensureDirectories (p : Path) : Edit Unit := ensureFrom p.anchor p.names.reverse

/-! ## Files -/

/-- Gives the file at the end of a path a content. -/
def writeFile (p : Path) (content : Content) : Edit Unit := do
  let l ← ofExcept (·.locate p)
  match (← get).find? l with
  | some .directory => throw .isDirectory
  | _ => put l (.file content)

/-- The number of bytes that a draft name adds. -/
def draftNameBytes : Nat := 14

/-- The names under which a draft of a file may be written, one for each number. -/
def draftName (name : String) (number : Nat) : String :=
  "." ++ name ++ "." ++ zeroPadded 8 number ++ ".tmp"

/-- The first place in a directory for a draft of a file at which there is nothing. More names are
tried than there are entries, so one of them is free. -/
def freeDraft? (w : Workspace) (directory : Location) (name : String) : Option Location :=
  ((List.range (w.entries.length + 1)).map fun n => directory ++ [draftName name n]).find? fun l =>
    (w.find? l).isNone

/-- Opens a draft of the file at the end of a path, under the first draft name that is free in the
directory of the file, and tells where it is. -/
def openDraft (p : Path) : Edit Location := do
  let w ← get
  let directory ← ofExcept (·.walk [] (p.parent.location w.current))
  match w.find? directory with
  | none => throw .missing
  | some (.file _) => throw .notDirectory
  | some .directory =>
    if Workspace.maxNameBytes < p.name.utf8ByteSize + draftNameBytes then throw .nameTooLong
    else
      match freeDraft? w directory p.name with
      | none => throw .alreadyExists
      | some draft =>
        put draft (.file (.text ""))
        return draft

/-- Lets a draft take its place at the end of a path. -/
def moveDraft (draft : Location) (p : Path) : Edit Unit := do
  let l ← ofExcept (·.locate p)
  if p.name = "" ∨ p.name = ".." then throw .busy
  let w ← get
  match w.find? l, w.find? draft with
  | some .directory, _ => throw .isDirectory
  | _, none => throw .missing
  | _, some e => set ((w.erase draft).put l e)

/-- Replaces the file at the end of a path as a whole. A draft that cannot take its place is
removed. -/
def replaceFile (p : Path) (text : String) : Edit Unit := do
  let draft ← openDraft p
  put draft (.file (.text text))
  fun w =>
    match moveDraft draft p w with
    | .ok _ w => .ok () w
    | .error fault w => .error fault (w.erase draft)

end Edit

end DocSchema
