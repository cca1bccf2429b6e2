import DocSchema.Assoc
import DocSchema.Report.Workbook
import DocSchema.Text.Utf8
import DocSchema.Workspace.Path

/-!
# Workspaces

A workspace is a tree of directories and files with a current directory. A file holds a text, a
workbook, or bytes that are no text.

## Main definitions

* `Workspace`, `Workspace.find?`: what is at a location
* `FileFault`: why nothing can be done at the end of a path
* `Workspace.locate`: follows a path through directories that exist
* `Workspace.exists?`, `Workspace.read`, `Workspace.readText`

## Implementation notes

The entries of a workspace are a list with at most one entry for a location. The root is always a
directory and has no entry.
-/

namespace DocSchema

/-- What a file holds. -/
inductive Content
  | text (s : String)
  | workbook (w : Workbook)
  /-- Bytes that are not the bytes of a text. -/
  | bytes (content : List UInt8)
  deriving DecidableEq, Repr

/-- The content that some bytes are. -/
def Content.ofBytes (content : List UInt8) : Content :=
  match Text.decodeUtf8? content with
  | some s => text s
  | none => bytes content

/-- A directory or a file. -/
inductive Entry
  | directory
  | file (content : Content)
  deriving DecidableEq, Repr

/-- Why nothing can be done at the end of a path. -/
inductive FileFault
  | missing
  | busy
  | alreadyExists
  | notDirectory
  | isDirectory
  | nameTooLong
  deriving DecidableEq, Repr

namespace FileFault

/-- The number by which the operating system calls a fault. -/
def number : FileFault → Nat
  | missing => 2
  | busy => 16
  | alreadyExists => 17
  | notDirectory => 20
  | isDirectory => 21
  | nameTooLong => 36

/-- What a fault says. -/
def reason : FileFault → String
  | missing => "No such file or directory"
  | busy => "Device or resource busy"
  | alreadyExists => "File exists"
  | notDirectory => "Not a directory"
  | isDirectory => "Is a directory"
  | nameTooLong => "File name too long"

/-- The wording of a fault. -/
def message (f : FileFault) : String := "[Errno " ++ toString f.number ++ "] " ++ f.reason

/-- Whether a fault only says that there is nothing at the end of a path. -/
def isAbsence : FileFault → Bool
  | missing => true
  | notDirectory => true
  | _ => false

end FileFault

/-- A tree of directories and files with a current directory. -/
structure Workspace where
  current : Location
  entries : List (Location × Entry)
  deriving DecidableEq, Repr

namespace Workspace

/-- What is at a location. -/
def find? (w : Workspace) (l : Location) : Option Entry :=
  if l = [] then some .directory else Assoc.find? l w.entries

/-- The workspace with an entry at a location. -/
def put (w : Workspace) (l : Location) (e : Entry) : Workspace :=
  { w with entries := Assoc.put (· == ·) l e w.entries }

/-- The workspace without an entry at a location. -/
def erase (w : Workspace) (l : Location) : Workspace :=
  { w with entries := w.entries.filter fun e => e.1 != l }

@[simp] theorem put_current (w : Workspace) (l : Location) (e : Entry) :
    (w.put l e).current = w.current := rfl

theorem find?_put_self {l : Location} (h : l ≠ []) (w : Workspace) (e : Entry) :
    (w.put l e).find? l = some e := by
  simp [find?, put, h]

theorem find?_put_of_ne {l other : Location} (h : other ≠ l) (w : Workspace) (e : Entry) :
    (w.put l e).find? other = w.find? other := by
  simp [find?, put, Assoc.find?_put_of_ne h]

/-- The locations on the way to a location, itself included and the root excluded. -/
def ancestors (l : Location) : List Location :=
  (List.range l.length).map fun n => l.take (n + 1)

/-- A workspace in which there is nothing but the current directory. -/
def empty (current : Location) : Workspace where
  current := current
  entries := (ancestors current).map fun l => (l, .directory)

/-! ## Following a path -/

/-- The greatest number of bytes in a name. -/
def maxNameBytes : Nat := 255

/-- Follows names from a location. All but the last one have to be directories, and so has the
start; at the last one there may be anything or nothing. -/
def walk (w : Workspace) (l : Location) : List String → Except FileFault Location
  | [] => .ok l
  | name :: rest =>
    match w.find? l with
    | none => .error .missing
    | some (.file _) => .error .notDirectory
    | some .directory =>
      if maxNameBytes < name.utf8ByteSize then .error .nameTooLong
      else w.walk (Path.step l name) rest

/-- The location at the end of a path. -/
def locate (w : Workspace) (p : Path) : Except FileFault Location :=
  w.walk (p.start w.current) p.names

/-- What is at the end of a path. -/
def read? (w : Workspace) (p : Path) : Except FileFault (Option Entry) :=
  (w.locate p).map w.find?

/-- Whether there is anything at the end of a path. -/
def exists? (w : Workspace) (p : Path) : Except FileFault Bool :=
  match w.read? p with
  | .ok entry => .ok entry.isSome
  | .error fault => if fault.isAbsence then .ok false else .error fault

/-- Whether there is a directory at the end of a path. -/
def isDirectory (w : Workspace) (p : Path) : Bool :=
  match w.read? p with
  | .ok (some .directory) => true
  | _ => false

/-! ## Reading -/

/-- The content of the file at the end of a path. -/
def read (w : Workspace) (p : Path) : Except FileFault Content := do
  match ← w.read? p with
  | some (.file content) => .ok content
  | some .directory => .error .isDirectory
  | none => .error .missing

/-- Why there is no text at the end of a path. -/
inductive ReadFault
  | file (fault : FileFault)
  /-- The bytes of the file are not the bytes of a text. -/
  | undecodable
  deriving DecidableEq, Repr

/-- The text at the end of a path, with a line feed for every end of a line. -/
def readText (w : Workspace) (p : Path) : Except ReadFault String :=
  match w.read p with
  | .ok (.text s) => .ok (Text.plainLineEnds s)
  | .ok _ => .error .undecodable
  | .error fault => .error (.file fault)

end Workspace

end DocSchema
