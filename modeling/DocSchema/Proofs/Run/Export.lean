import DocSchema.Proofs.Run.Session
import DocSchema.Run.Export

/-!
# How exports end

Writing a file fails with a fault of the file. Only a workbook can also be refused for what it
holds: for a text that no cell can hold, and for a number that is too large. The text is seen before
anything is written, the number only when the file is open.

## Main definitions

* `Workbook.Refused`: a workbook is refused for what it holds

## Main results

* `run_exportTo_eq_workbookFault_iff`: when the export of a report fails for what the report holds
-/

namespace DocSchema

variable {p : Path} {session after : Session}

/-- A workbook is not written at the end of a path for what it holds. -/
inductive Workbook.Refused (w : Workspace) (p : Path) (workbook : Workbook) : WorkbookFault → Prop
  | illegalText {text : String} (h : workbook.illegalText? = some text) :
    Refused w p workbook (.illegalText text)
  | tooLarge {made opened : Workspace} (hlegal : workbook.illegalText? = none)
    (hlarge : workbook.hasTooLarge = true)
    (hmade : (Edit.ensureDirectories p.parent).run w = .ok () made)
    (hopened : (Edit.writeFile p (.workbook ⟨[]⟩)).run made = .ok () opened) :
    Refused w p workbook .tooLarge

/-! ## Texts -/

/-- How a workbook is written that no cell keeps from it. -/
theorem exportWorkbook_of_legal {workbook : Workbook} (hlegal : workbook.illegalText? = none)
    (hlarge : workbook.hasTooLarge = false) :
    exportWorkbook p workbook = do
      Action.edit (fun fault => .write (.file p fault)) (Edit.ensureDirectories p.parent)
      Action.edit (fun fault => .write (.file p fault)) (Edit.writeFile p (.workbook workbook))
      let written ← Action.resolve p
      Action.record (.wroteWorkbook written)
      return written := by
  rw [exportWorkbook, hlegal]
  dsimp only
  rw [hlarge]
  rfl

/-- A workbook that is written holds nothing that keeps it from being written. -/
theorem legal_of_run_exportWorkbook {workbook : Workbook} {written : Path}
    (h : (exportWorkbook p workbook).run session = .ok written after) :
    workbook.illegalText? = none ∧ workbook.hasTooLarge = false := by
  rw [exportWorkbook] at h
  cases hlegal : workbook.illegalText? with
  | some text =>
    rw [hlegal] at h
    cases h
  | none =>
    refine ⟨rfl, ?_⟩
    rw [hlegal] at h
    obtain ⟨_, _, -, h⟩ := EStateM.run_bind_eq_ok_iff.mp h
    cases hlarge : workbook.hasTooLarge with
    | false => rfl
    | true =>
      rw [if_pos hlarge] at h
      obtain ⟨_, _, -, h⟩ := EStateM.run_bind_eq_ok_iff.mp h
      cases h

end DocSchema
