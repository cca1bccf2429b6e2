import DocSchema.Access.Rules
import DocSchema.Config.Basic
import DocSchema.Index
import DocSchema.Report.Workbook
import DocSchema.Run.Session

/-!
# Writing compiled files and reports

Every file is written as a whole: after a run it holds what it held before or what it was to hold.

## Main definitions

* `Compiled`, `Schema.compiled`: what a schema is compiled to
* `Compiled.write`: writes the compiled files, one after the other
* `Report.exportTo`: a report as a file
-/

namespace DocSchema

/-- Why a file cannot be written. -/
inductive WriteFault
  | directory (path : Path) (fault : FileFault)
  | file (path : Path) (fault : FileFault)
  deriving DecidableEq, Repr

/-- The wording of a fault. -/
def WriteFault.message : WriteFault → String
  | directory path fault =>
    "Cannot create output directory " ++ path.text ++ ": " ++ fault.message
  | file path fault => "Failed to write " ++ path.text ++ ": " ++ fault.message

/-- Replaces a file by a text, logs it and tells where the file is. -/
def replaceFile (p : Path) (text : String) : Action WriteFault Path := do
  Action.edit (.file p) (Edit.replaceFile p text)
  Action.record (.wroteText p text.utf8ByteSize)
  Action.resolve p

/-! ## Compiled files -/

/-- What a schema is compiled to. -/
structure Compiled where
  rules : String
  storage : String
  indexes : List CompositeIndex
  deriving DecidableEq, Repr

/-- What a schema is compiled to. -/
def Schema.compiled (s : Schema) : Compiled where
  rules := rulesText s
  storage := storageRules
  indexes := s.indexes

/-- The places of the compiled files. -/
structure Artifacts where
  rules : Path
  storage : Path
  indexes : Path
  deriving DecidableEq, Repr

/-- Writes the compiled files into their directory, which is made if it is missing. -/
def Compiled.write (c : Compiled) (o : OutputSettings) : Action WriteFault Artifacts := do
  Action.edit (.directory o.directory) (Edit.ensureDirectories o.directory)
  let rules ← replaceFile o.rulesPath c.rules
  let storage ← replaceFile o.storagePath c.storage
  let indexes ← replaceFile o.indexesPath (manifestText c.indexes)
  return { rules, storage, indexes }

/-! ## Reports -/

/-- Why a report is not exported. -/
inductive ExportFault
  | write (fault : WriteFault)
  | workbook (fault : WorkbookFault)
  deriving DecidableEq, Repr

/-- The wording of a fault. -/
def ExportFault.message : ExportFault → String
  | write fault => fault.message
  | workbook fault => fault.message

/-- Writes a text as a file, with the directories on the way to it. -/
def exportText (p : Path) (text : String) : Action ExportFault Path := do
  Action.edit (fun fault => .write (.file p fault)) (Edit.ensureDirectories p.parent)
  (replaceFile p text).adaptExcept .write

/-- Writes a workbook as a file, with the directories on the way to it. Texts that it cannot hold
stop it at once, numbers only after the file has been opened. -/
def exportWorkbook (p : Path) (w : Workbook) : Action ExportFault Path := do
  if let some text := w.illegalText? then throw (.workbook (.illegalText text))
  let fault := fun fault => ExportFault.write (.file p fault)
  Action.edit fault (Edit.ensureDirectories p.parent)
  if w.hasTooLarge then
    Action.edit fault (Edit.writeFile p (.workbook ⟨[]⟩))
    throw (.workbook .tooLarge)
  Action.edit fault (Edit.writeFile p (.workbook w))
  let written ← Action.resolve p
  Action.record (.wroteWorkbook written)
  return written

/-- Writes a report as a file and tells where it is. The record gets an end of the last line. -/
def Report.exportTo (r : Report) (format : ReportFormat) (p : Path) : Action ExportFault Path :=
  match format with
  | .structured => exportText p (r.recordText ++ "\n")
  | .text => exportText p r.markdown
  | .workbook => exportWorkbook p r.workbook

end DocSchema
