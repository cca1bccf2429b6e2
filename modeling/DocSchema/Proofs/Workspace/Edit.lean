import DocSchema.Proofs.Assoc
import DocSchema.Proofs.Except
import DocSchema.Workspace.Edit
import Mathlib.Data.List.Basic

/-!
# What edits leave alone

An edit that makes directories fills places where nothing was, and one that writes a file changes
one place. So after a run of edits the files that have been written hold what was written last, and
everything else is as it was, other than directories where there was nothing.

## Main definitions

* `Workspace.Holds`: a path leads to a file with a content
* `Workspace.Grows`: nothing has changed but that there are more directories
* `Workspace.Written`: a workspace after some files have been written
* `Edit.AllOrNothing`: an edit that fails leaves the workspace as it was

## Main results

* `Edit.run_makeDirectory_eq_ok_iff`, `Edit.run_writeFile_eq_ok_iff`,
  `Edit.run_openDraft_eq_ok_iff`, `Edit.run_moveDraft_eq_ok_iff`: what an edit does, and when
* `Edit.grows_of_ensureDirectories_ok`: making directories
* `Edit.eq_put_of_replaceFile_ok`: replacing a file
* `Edit.allOrNothing_replaceFile`: a file that cannot be replaced, of whose draft nothing is left
* `Workspace.Written.find?_of_some`, `Workspace.Written.kept_of_none`: what is where after some
  files have been written
-/

namespace DocSchema

namespace Workspace

/-! ## Following a path -/

/-- Where names lead does not depend on what is there. -/
theorem walk_eq_ok {w : Workspace} {l place : Location} {names : List String}
    (h : w.walk l names = .ok place) : place = names.foldl Path.step l := by
  induction names generalizing l with
  | nil => exact (Except.ok.inj h).symm
  | cons name rest ih =>
    rw [walk] at h
    split at h
    · cases h
    · cases h
    · split at h
      · cases h
      · exact ih h

theorem locate_eq_ok {w : Workspace} {p : Path} {l : Location} (h : w.locate p = .ok l) :
    l = p.location w.current := walk_eq_ok h

/-- A path leads to a file with a content. -/
def Holds (w : Workspace) (p : Path) (content : Content) : Prop :=
  w.find? (p.location w.current) = some (.file content)

theorem holds_of_read {w : Workspace} {p : Path} {content : Content}
    (h : w.read p = .ok content) : w.Holds p content := by
  obtain ⟨entry, hentry, h⟩ := Except.bind_eq_ok_iff.mp h
  obtain ⟨l, hl, rfl⟩ := Except.map_eq_ok_iff.mp hentry
  rw [locate_eq_ok hl] at h
  split at h
  · next hfile =>
    cases h
    exact hfile
  · cases h
  · cases h

theorem holds_of_readText {w : Workspace} {p : Path} {text : String}
    (h : w.readText p = .ok text) : ∃ s, w.Holds p (.text s) := by
  rw [readText] at h
  split at h
  · next s hread => exact ⟨s, holds_of_read hread⟩
  · cases h
  · cases h

/-! ## Putting and removing -/

theorem ne_nil_of_find?_eq_none {w : Workspace} {l : Location} (h : w.find? l = none) :
    l ≠ [] := by
  rintro rfl
  cases h

/-- Of two entries at a location the later one is left. -/
theorem put_put (w : Workspace) (l : Location) (e e' : Entry) :
    (w.put l e).put l e' = w.put l e' := by
  rw [put, put, put, Assoc.put_put]

/-- Nothing is left of an entry that is put where nothing was and then removed. -/
theorem erase_put {w : Workspace} {l : Location} (h : w.find? l = none) (e : Entry) :
    (w.put l e).erase l = w := by
  rw [find?, if_neg (ne_nil_of_find?_eq_none h)] at h
  have hl : l ∉ w.entries.map Prod.fst := Assoc.find?_eq_none_iff.mp h
  have hothers : w.entries.filter (fun entry => entry.1 != l) = w.entries := by
    refine List.filter_eq_self.mpr fun entry hmem => bne_iff_ne.mpr ?_
    rintro rfl
    exact hl (List.mem_map_of_mem hmem)
  rw [put, erase, Assoc.put_of_notMem hl, List.filter_append, hothers, List.filter_singleton,
    bne_self_eq_false, cond_false, List.append_nil]

/-- A file that is put where nothing was leaves the directories as they are. -/
theorem find?_put_file_eq_directory_iff {w : Workspace} {l : Location} (h : w.find? l = none)
    (content : Content) (place : Location) :
    (w.put l (.file content)).find? place = some .directory ↔ w.find? place = some .directory := by
  by_cases hplace : place = l
  · rw [hplace, find?_put_self (ne_nil_of_find?_eq_none h), h]
    exact iff_of_false nofun nofun
  · rw [find?_put_of_ne hplace]

/-! ## More directories -/

/-- What is at a location is what was there, or a directory where there was nothing. -/
def Kept (old new : Option Entry) : Prop := new = old ∨ old = none ∧ new = some .directory

theorem Kept.refl (entry : Option Entry) : Kept entry entry := .inl rfl

theorem Kept.trans {old between new : Option Entry} (hold : Kept old between)
    (hnew : Kept between new) : Kept old new := by
  obtain rfl | ⟨rfl, rfl⟩ := hnew
  · exact hold
  · obtain rfl | ⟨-, hbetween⟩ := hold
    · exact .inr ⟨rfl, rfl⟩
    · cases hbetween

theorem Kept.eq_of_some {entry : Entry} {new : Option Entry} (h : Kept (some entry) new) :
    new = some entry := by
  obtain h | ⟨h, -⟩ := h
  · exact h
  · cases h

/-- Nothing has changed but that there are directories where there was nothing. -/
structure Grows (w after : Workspace) : Prop where
  current : after.current = w.current
  kept : ∀ l, Kept (w.find? l) (after.find? l)

theorem Grows.refl (w : Workspace) : w.Grows w := ⟨rfl, fun _ => .refl _⟩

theorem Grows.trans {u v w : Workspace} (huv : u.Grows v) (hvw : v.Grows w) : u.Grows w :=
  ⟨hvw.current.trans huv.current, fun l => (huv.kept l).trans (hvw.kept l)⟩

theorem grows_put_directory {w : Workspace} {l : Location} (h : w.find? l = none) :
    w.Grows (w.put l .directory) where
  current := rfl
  kept other := by
    by_cases hl : other = l
    · subst hl
      have hne : other ≠ [] := by
        rintro rfl
        cases h
      exact .inr ⟨h, find?_put_self hne w .directory⟩
    · exact .inl (find?_put_of_ne hl w .directory)

end Workspace

namespace Edit

variable {w after : Workspace} {p : Path}

theorem run_ofExcept_eq_ok_iff {α : Type} {look : Workspace → Except FileFault α} {a : α} :
    (ofExcept look).run w = .ok a after ↔ look w = .ok a ∧ after = w := by
  show ofExcept look w = _ ↔ _
  rw [ofExcept]
  cases look w <;> simp [eq_comm]

theorem run_ofExcept_eq_error_iff {α : Type} {look : Workspace → Except FileFault α}
    {fault : FileFault} :
    (ofExcept look).run w = .error fault after ↔ look w = .error fault ∧ after = w := by
  show ofExcept look w = _ ↔ _
  rw [ofExcept]
  cases look w <;> simp [eq_comm]

/-- An edit that looks first does the rest in the same workspace. -/
theorem run_look_eq_ok_iff {α β : Type} {look : Workspace → Except FileFault α} {next : α → Edit β}
    {b : β} :
    (ofExcept look >>= next).run w = .ok b after ↔
      ∃ a, look w = .ok a ∧ (next a).run w = .ok b after := by
  rw [EStateM.run_bind_eq_ok_iff]
  constructor
  · rintro ⟨a, v, hlook, hnext⟩
    obtain ⟨ha, rfl⟩ := run_ofExcept_eq_ok_iff.mp hlook
    exact ⟨a, ha, hnext⟩
  · rintro ⟨a, ha, hnext⟩
    exact ⟨a, w, run_ofExcept_eq_ok_iff.mpr ⟨ha, rfl⟩, hnext⟩

theorem run_get_bind {α : Type} (next : Workspace → Edit α) (w : Workspace) :
    (get >>= next).run w = (next w).run w := rfl

/-! ## Edits that fail as a whole -/

/-- An edit that fails leaves the workspace as it was. -/
def AllOrNothing {α : Type} (edit : Edit α) : Prop :=
  ∀ {w after : Workspace} {fault : FileFault}, edit.run w = .error fault after → after = w

theorem allOrNothing_throw {α : Type} (fault : FileFault) :
    AllOrNothing (throw fault : Edit α) := by
  intro w after cause h
  cases h
  rfl

theorem allOrNothing_put (l : Location) (e : Entry) : AllOrNothing (put l e) := by
  intro w after fault h
  cases h

theorem allOrNothing_look {α β : Type} {look : Workspace → Except FileFault α} {next : α → Edit β}
    (hnext : ∀ a, AllOrNothing (next a)) : AllOrNothing (ofExcept look >>= next) := by
  intro w after fault h
  obtain hlook | ⟨a, v, hlook, hrest⟩ := EStateM.run_bind_eq_error_iff.mp h
  · exact (run_ofExcept_eq_error_iff.mp hlook).2
  · obtain ⟨-, rfl⟩ := run_ofExcept_eq_ok_iff.mp hlook
    exact hnext a hrest

theorem allOrNothing_get {α : Type} {next : Workspace → Edit α}
    (hnext : ∀ w, AllOrNothing (next w)) : AllOrNothing (get >>= next) := by
  intro w after fault h
  exact hnext w h

/-! ## Directories -/

/-- A directory is made where nothing was. -/
theorem run_makeDirectory_eq_ok_iff :
    (makeDirectory p).run w = .ok () after ↔
      w.locate p = .ok (p.location w.current) ∧ w.find? (p.location w.current) = none ∧
        after = w.put (p.location w.current) .directory := by
  rw [makeDirectory, run_look_eq_ok_iff]
  constructor
  · rintro ⟨l, hl, h⟩
    obtain rfl := Workspace.locate_eq_ok hl
    rw [run_get_bind] at h
    split at h
    · cases h
    · next hnone =>
      cases h
      exact ⟨hl, hnone, rfl⟩
  · rintro ⟨hl, hnone, rfl⟩
    refine ⟨_, hl, ?_⟩
    rw [run_get_bind, hnone]
    rfl

theorem allOrNothing_makeDirectory (p : Path) : AllOrNothing (makeDirectory p) := by
  refine allOrNothing_look fun l => allOrNothing_get fun w => ?_
  split
  · exact allOrNothing_throw _
  · exact allOrNothing_put _ _

theorem grows_of_makeDirectory_ok (h : (makeDirectory p).run w = .ok () after) :
    w.Grows after := by
  obtain ⟨-, hnone, rfl⟩ := run_makeDirectory_eq_ok_iff.mp h
  exact Workspace.grows_put_directory hnone

theorem grows_of_ensureDirectory_ok (h : (ensureDirectory p).run w = .ok () after) :
    w.Grows after := by
  change ensureDirectory p w = _ at h
  rw [ensureDirectory] at h
  split at h
  · next hmake =>
    cases h
    exact grows_of_makeDirectory_ok hmake
  · next hmake =>
    split at h
    · cases h
      obtain rfl := allOrNothing_makeDirectory p hmake
      exact .refl _
    · cases h

theorem allOrNothing_ensureDirectory (p : Path) : AllOrNothing (ensureDirectory p) := by
  intro w after fault h
  change ensureDirectory p w = _ at h
  rw [ensureDirectory] at h
  split at h
  · cases h
  · next hmake =>
    split at h
    · cases h
    · cases h
      exact allOrNothing_makeDirectory p hmake

/-- The directories on the way are made from the outermost one on, and each of them where nothing
was. -/
theorem grows_of_ensureFrom_ok {anchor : Anchor} {names : List String}
    (h : (ensureFrom anchor names).run w = .ok () after) : w.Grows after := by
  induction names generalizing w after with
  | nil => exact grows_of_ensureDirectory_ok h
  | cons name outer ih =>
    rw [ensureFrom] at h
    dsimp only [EStateM.run] at h
    split at h
    · next hfirst =>
      cases h
      exact grows_of_ensureDirectory_ok hfirst
    · next hfirst =>
      obtain rfl := allOrNothing_ensureDirectory _ hfirst
      obtain ⟨_, made, houter, hinner⟩ := EStateM.run_bind_eq_ok_iff.mp h
      exact (ih houter).trans (grows_of_ensureDirectory_ok hinner)
    · cases h

theorem grows_of_ensureDirectories_ok (h : (ensureDirectories p).run w = .ok () after) :
    w.Grows after := grows_of_ensureFrom_ok h

/-! ## Files -/

/-- A file is written where there is no directory, and nothing else changes. -/
theorem run_writeFile_eq_ok_iff {content : Content} :
    (writeFile p content).run w = .ok () after ↔
      w.locate p = .ok (p.location w.current) ∧
        w.find? (p.location w.current) ≠ some .directory ∧
        after = w.put (p.location w.current) (.file content) := by
  rw [writeFile, run_look_eq_ok_iff]
  constructor
  · rintro ⟨l, hl, h⟩
    obtain rfl := Workspace.locate_eq_ok hl
    rw [run_get_bind] at h
    split at h
    · cases h
    · next hne =>
      cases h
      exact ⟨hl, hne, rfl⟩
  · rintro ⟨hl, hne, rfl⟩
    refine ⟨_, hl, ?_⟩
    rw [run_get_bind]
    split
    · next hdirectory => exact absurd hdirectory hne
    · rfl

theorem find?_eq_none_of_freeDraft? {directory draft : Location} {name : String}
    (h : freeDraft? w directory name = some draft) : w.find? draft = none := by
  have hfree := List.find?_some h
  exact Option.isNone_iff_eq_none.mp hfree

/-- A draft with a name that is short enough is opened where nothing was, in the directory of the
file. -/
theorem run_openDraft_eq_ok_iff {draft : Location} :
    (openDraft p).run w = .ok draft after ↔
      (∃ directory, w.walk [] (p.parent.location w.current) = .ok directory ∧
        w.find? directory = some .directory ∧ freeDraft? w directory p.name = some draft) ∧
      p.name.utf8ByteSize + draftNameBytes ≤ Workspace.maxNameBytes ∧
      after = w.put draft (.file (.text "")) := by
  rw [openDraft, run_get_bind, run_look_eq_ok_iff]
  constructor
  · rintro ⟨directory, hwalk, h⟩
    split at h
    · cases h
    · cases h
    · next hdirectory =>
      split at h
      · cases h
      · next hshort =>
        split at h
        · cases h
        · next hfound =>
          cases h
          exact ⟨⟨directory, hwalk, hdirectory, hfound⟩, Nat.not_lt.mp hshort, rfl⟩
  · rintro ⟨⟨directory, hwalk, hdirectory, hfound⟩, hshort, rfl⟩
    refine ⟨directory, hwalk, ?_⟩
    rw [hdirectory]
    dsimp only
    rw [if_neg (Nat.not_lt.mpr hshort), hfound]
    rfl

theorem eq_put_of_openDraft_ok {draft : Location} (h : (openDraft p).run w = .ok draft after) :
    w.find? draft = none ∧ after = w.put draft (.file (.text "")) := by
  obtain ⟨⟨directory, -, -, hfound⟩, -, rfl⟩ := run_openDraft_eq_ok_iff.mp h
  exact ⟨find?_eq_none_of_freeDraft? hfound, rfl⟩

/-- A draft takes the place of a file, or a place where nothing was. A path that ends with no name
of its own is refused. -/
theorem run_moveDraft_eq_ok_iff {draft : Location} :
    (moveDraft draft p).run w = .ok () after ↔
      w.locate p = .ok (p.location w.current) ∧ ¬ (p.name = "" ∨ p.name = "..") ∧
        w.find? (p.location w.current) ≠ some .directory ∧
        ∃ e, w.find? draft = some e ∧ after = (w.erase draft).put (p.location w.current) e := by
  rw [moveDraft, run_look_eq_ok_iff]
  constructor
  · rintro ⟨l, hl, h⟩
    obtain rfl := Workspace.locate_eq_ok hl
    split at h
    · cases h
    · next hnamed =>
      rw [run_get_bind] at h
      split at h
      · cases h
      · cases h
      · next hdraft hfree =>
        cases h
        exact ⟨hl, hnamed, hfree, _, hdraft, rfl⟩
  · rintro ⟨hl, hnamed, hfree, e, hdraft, rfl⟩
    refine ⟨_, hl, ?_⟩
    rw [if_neg hnamed, run_get_bind, hdraft]
    split
    · next hdirectory => exact absurd hdirectory hfree
    · next hnone _ => cases hnone
    · next hsome _ =>
      cases hsome
      rfl

/-- How a file is replaced: a draft is written where nothing was, and then takes its place or is
removed. -/
theorem run_replaceFile_of_openDraft_ok {text : String} {draft : Location}
    (h : (openDraft p).run w = .ok draft after) :
    (replaceFile p text).run w =
      match (moveDraft draft p).run (w.put draft (.file (.text text))) with
      | .ok _ v => .ok () v
      | .error fault v => .error fault (v.erase draft) := by
  obtain ⟨-, rfl⟩ := eq_put_of_openDraft_ok h
  rw [replaceFile, EStateM.run_bind, h]
  show (match moveDraft draft p ((w.put draft _).put draft _) with
    | .ok _ v => _
    | .error fault v => _) = _
  rw [Workspace.put_put]
  rfl

/-- A file is replaced where there is no directory, and nothing else changes: the draft is gone. -/
theorem eq_put_of_replaceFile_ok {text : String}
    (h : (replaceFile p text).run w = .ok () after) :
    w.find? (p.location w.current) ≠ some .directory ∧
      after = w.put (p.location w.current) (.file (.text text)) := by
  obtain ⟨draft, v, hopen, -⟩ := EStateM.run_bind_eq_ok_iff.mp h
  obtain ⟨hfree, -⟩ := eq_put_of_openDraft_ok hopen
  rw [run_replaceFile_of_openDraft_ok hopen] at h
  split at h
  · next hmove =>
    cases h
    obtain ⟨-, -, hplace, e, hdraft, rfl⟩ := run_moveDraft_eq_ok_iff.mp hmove
    rw [Workspace.find?_put_self (Workspace.ne_nil_of_find?_eq_none hfree)] at hdraft
    cases hdraft
    rw [Workspace.erase_put hfree, Workspace.put_current]
    exact ⟨fun hdirectory => hplace
      ((Workspace.find?_put_file_eq_directory_iff hfree _ _).mpr hdirectory), rfl⟩
  · cases h

end Edit

/-! ## Several files -/

namespace Workspace

/-- A workspace in which some files have been written, the last one first, and directories may have
been made. A file is never written in the place of a directory. -/
inductive Written (w : Workspace) : List (Location × Content) → Workspace → Prop
  | nil : Written w [] w
  | grow {files : List (Location × Content)} {v after : Workspace} (h : Written w files v)
    (hgrows : v.Grows after) : Written w files after
  | file {files : List (Location × Content)} {v : Workspace} {l : Location} {content : Content}
    (h : Written w files v) (hfree : v.find? l ≠ some .directory) :
    Written w ((l, content) :: files) (v.put l (.file content))

variable {w after : Workspace} {files : List (Location × Content)} {l : Location}

theorem Written.current (h : Written w files after) : after.current = w.current := by
  induction h with
  | nil => rfl
  | grow _ hgrows ih => exact hgrows.current.trans ih
  | file _ _ ih => exact ih

/-- A file that is written holds what was written last. -/
theorem Written.find?_of_some (h : Written w files after) {content : Content}
    (hl : Assoc.find? l files = some content) : after.find? l = some (.file content) := by
  induction h with
  | nil => cases hl
  | grow _ hgrows ih => exact (ih hl ▸ hgrows.kept l).eq_of_some
  | @file files v place written _ hfree ih =>
    by_cases hplace : place = l
    · subst hplace
      rw [Assoc.find?, if_pos (beq_self_eq_true _)] at hl
      cases hl
      refine find?_put_self ?_ v _
      rintro rfl
      exact hfree rfl
    · rw [Assoc.find?, if_neg (by simpa using hplace)] at hl
      rw [find?_put_of_ne (Ne.symm hplace)]
      exact ih hl

/-- Where no file is written, everything is kept. -/
theorem Written.kept_of_none (h : Written w files after) (hl : Assoc.find? l files = none) :
    Kept (w.find? l) (after.find? l) := by
  induction h with
  | nil => exact .refl _
  | grow _ hgrows ih => exact (ih hl).trans (hgrows.kept l)
  | @file files v place written _ _ ih =>
    by_cases hplace : place = l
    · subst hplace
      rw [Assoc.find?, if_pos (beq_self_eq_true _)] at hl
      cases hl
    · rw [Assoc.find?, if_neg (by simpa using hplace)] at hl
      rw [find?_put_of_ne (Ne.symm hplace)]
      exact ih hl

end Workspace

end DocSchema
