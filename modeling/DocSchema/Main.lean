import DocSchema.CommandLine.Run

/-!
# The program

The program looks up on the disk what a call speaks of, runs the call on that, and writes what has
changed back to the disk. All decisions are made by `CommandLine.run`.
-/

namespace DocSchema.Disk

open CommandLine (Command Call)

/-! ## What to look up -/

/-- The locations that are visited along a path, with all that is above them. -/
def visited (current : Location) (p : Path) : List Location :=
  (List.range (p.names.length + 1)).flatMap fun n =>
    Workspace.ancestors (Path.location current { p with names := p.names.take n })

/-- The paths that a command is given. -/
def given : Command → List Path
  | .generateConfig output => [.ofText output]
  | .validate config => [.ofText config]
  | .compile config outputDirectory =>
    .ofText config :: outputDirectory.toList.map Path.ofText
  | .report config _ output => .ofText config :: output.toList.map Path.ofText

/-- The paths that the configuration in a file speaks of, as far as it can be read. -/
def configured (w : Workspace) (config : String) (directory : Option String) : List Path :=
  match Configuration.load w (.ofText config) with
  | .ok c =>
    let output := match nonempty? directory with
      | none => c.output
      | some directory => { c.output with directory := (Path.ofText directory).resolve w.current }
    [output.rulesPath, output.storagePath, output.indexesPath] ++ c.report.path.toList
  | .error (.config (.schemaMissing file)) => [file]
  | .error _ => []

/-- The paths that a command finds in its configuration. -/
def found (w : Workspace) : Command → List Path
  | .generateConfig _ => []
  | .validate config => configured w config none
  | .compile config outputDirectory => configured w config outputDirectory
  | .report config _ _ => configured w config none

/-! ## Looking up and writing back -/

/-- The number of the fault by which a directory is told from a file. -/
def isDirectoryNumber : UInt32 := 21

/-- What the disk holds at a location. -/
def look (l : Location) : IO (Option Entry) := do
  try
    let content ← IO.FS.readBinFile (Path.ofLocation l).text
    return some (.file (.ofBytes content.toList))
  catch
    | .inappropriateType _ number _ =>
      return if number = isDirectoryNumber then some .directory else none
    | _ => return none

/-- Adds to a workspace what the disk holds along some paths. -/
def fetch (w : Workspace) (paths : List Path) : IO Workspace :=
  (paths.flatMap (visited w.current)).foldlM
    (fun w l => do
      if (w.find? l).isSome then return w
      match ← look l with
      | some e => return w.put l e
      | none => return w)
    w

/-- Puts an entry on the disk. A file takes its place when it is complete. -/
def store (l : Location) (e : Entry) : IO Unit := do
  let path := (Path.ofLocation l).text
  let draft := path ++ ".draft"
  match e with
  | .directory => IO.FS.createDir path
  | .file (.text s) =>
    IO.FS.writeFile draft s
    IO.FS.rename draft path
  | .file (.bytes content) =>
    IO.FS.writeBinFile draft ⟨content.toArray⟩
    IO.FS.rename draft path
  | .file (.workbook _) => throw (.userError ("no file form for the workbook " ++ path))

/-- Puts the entries on the disk in which a workspace differs from an earlier one. -/
def storeChanges (before after : Workspace) : IO Unit :=
  after.entries.forM fun (l, e) => do
    if before.find? l ≠ some e then store l e

/-- The workspace around the current directory. -/
def currentWorkspace : IO Workspace := do
  return .empty ((Path.ofText (← IO.currentDir).toString).location [])

/-- The workspace that a call needs. -/
def workspaceFor (arguments : List String) : IO Workspace := do
  let w ← currentWorkspace
  match Call.ofArguments arguments with
  | .ok (.run _ command) =>
    let w ← fetch w (given command)
    let w ← fetch w (found w command)
    fetch w (found w command)
  | _ => return w

end DocSchema.Disk

open DocSchema in
/-- Runs the program. -/
def main (arguments : List String) : IO UInt32 := do
  let w ← Disk.workspaceFor arguments
  let outcome := CommandLine.run w arguments
  Disk.storeChanges w outcome.workspace
  IO.print outcome.printed.out
  IO.eprint outcome.printed.err
  match outcome.ending with
  | .exit code => return code.toUInt32
  | .stopped fault =>
    IO.eprintln fault.message
    return 1
