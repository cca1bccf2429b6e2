import DocSchema.Proofs.Assoc
import DocSchema.Proofs.Config.Loading
import DocSchema.Proofs.Run.Compilation
import DocSchema.Proofs.Run.Export
import DocSchema.Proofs.Workspace.Edit

/-!
# What a compilation delivers

A compilation that comes to an end has written the compiled files and the report, one after the
other. Where two of them go to the same place, only the last one is left, and where one goes to the
place of the configuration or of the schema, that one is gone. The names of the files are settings,
and they may lead out of the directory. So a compilation delivers everything, and nothing else is
lost, exactly if the places that the settings name are apart.

## Main definitions

* `CompileRequest.files`: the files that a compilation writes
* `CompileRequest.Delivers`: everything is delivered, in its place, and the sources are as before
* `CompileRequest.Apart`: the settings name places that are apart

## Main results

* `written_of_run_deliver`: a compilation writes its files and nothing else
* `delivers_iff_apart`: when a compilation delivers everything
-/

namespace DocSchema

/-! ## The files of a compilation -/

/-- The content of the file of a report in a format. -/
def Report.content (r : Report) : ReportFormat → Content
  | .structured => .text (r.recordText ++ "\n")
  | .text => .text r.markdown
  | .workbook => .workbook r.workbook

/-- The compiled files with their contents. -/
def Compiled.files (c : Compiled) (o : OutputSettings) : List (Path × Content) :=
  [(o.rulesPath, .text c.rules), (o.storagePath, .text c.storage),
    (o.indexesPath, .text (manifestText c.indexes))]

/-- The file of the report with its content, if a request asks for it and there is a place. -/
def CompileRequest.reportFile? (r : CompileRequest) (loaded : LoadedSchema) :
    Option (Path × Content) :=
  if r.withReport then
    loaded.configuration.report.path.map fun p =>
      (p, loaded.schema.report.content loaded.configuration.report.format)
  else none

/-- The files of a compilation with their contents, in the order in which they are written. -/
def CompileRequest.files (r : CompileRequest) (current : Location) (loaded : LoadedSchema) :
    List (Path × Content) :=
  loaded.schema.compiled.files (r.output current loaded.configuration.output)
    ++ (r.reportFile? loaded).toList

/-- The places of the compiled files, as a compilation tells them. -/
def OutputSettings.artifacts (o : OutputSettings) (current : Location) : Artifacts where
  rules := o.rulesPath.resolve current
  storage := o.storagePath.resolve current
  indexes := o.indexesPath.resolve current

/-- The paths of the compiled files. -/
def Artifacts.paths (a : Artifacts) : List Path := [a.rules, a.storage, a.indexes]

/-- The paths of all files that a compilation tells of. -/
def CompileOutcome.paths (outcome : CompileOutcome) : List Path :=
  outcome.artifacts.paths ++ outcome.report.toList

/-- Files with the locations to which their paths lead. -/
def placed (current : Location) (files : List (Path × Content)) : List (Location × Content) :=
  files.map fun file => (file.1.location current, file.2)

/-- The locations of the compiled files. -/
def OutputSettings.places (o : OutputSettings) (current : Location) : List Location :=
  [o.rulesPath, o.storagePath, o.indexesPath].map (Path.location current)

/-- The locations of all files of a compilation, which do not depend on the schema. -/
def CompileRequest.places (r : CompileRequest) (current : Location) (c : Configuration) :
    List Location :=
  (r.output current c.output).places current
    ++ ((if r.withReport then c.report.path else none).map (Path.location current)).toList

theorem CompileRequest.map_fst_placed (r : CompileRequest) (current : Location)
    (loaded : LoadedSchema) :
    (placed current (r.files current loaded)).map Prod.fst =
      r.places current loaded.configuration := by
  rw [files, places, reportFile?, placed, List.map_append, List.map_append]
  cases r.withReport
  · rfl
  · cases loaded.configuration.report.path <;> rfl

/-! ## Writing them -/

section Writing

variable {w : Workspace} {before : List (Location × Content)} {session after : Session}

/-- A change that makes directories leaves the files that have been written. -/
theorem Workspace.Written.of_edit {ε : Type} {rename : FileFault → ε} {p : Path} {u : Unit}
    (h : Written w before session.workspace)
    (hrun : (Action.edit rename (Edit.ensureDirectories p)).run session = .ok u after) :
    Written w before after.workspace := by
  obtain ⟨v, hmade, rfl⟩ := Action.run_edit_eq_ok_iff.mp hrun
  exact .grow h (Edit.grows_of_ensureDirectories_ok hmade)

/-- A file at the end of a path; the current directory is the same all along. -/
theorem Workspace.Written.put {v : Workspace} {p : Path} {content : Content}
    (h : Written w before v) (hfree : v.find? (p.location v.current) ≠ some .directory) :
    Written w ((p.location w.current, content) :: before)
      (v.put (p.location v.current) (.file content)) := by
  rw [h.current] at hfree ⊢
  exact .file h hfree

theorem written_of_replaceFile {p written : Path} {text : String}
    (h : w.Written before session.workspace)
    (hrun : (replaceFile p text).run session = .ok written after) :
    w.Written ((p.location w.current, .text text) :: before) after.workspace ∧
      written = p.resolve w.current := by
  obtain ⟨_, s, hedit, hrest⟩ := EStateM.run_bind_eq_ok_iff.mp hrun
  obtain ⟨v, hreplace, rfl⟩ := Action.run_edit_eq_ok_iff.mp hedit
  obtain ⟨hfree, rfl⟩ := Edit.eq_put_of_replaceFile_ok hreplace
  cases hrest
  exact ⟨h.put hfree, congrArg (fun current => p.resolve current) h.current⟩

theorem written_of_write {c : Compiled} {o : OutputSettings} {artifacts : Artifacts}
    (hrun : (c.write o).run session = .ok artifacts after) :
    session.workspace.Written (placed session.workspace.current (c.files o)).reverse
        after.workspace ∧
      artifacts = o.artifacts session.workspace.current := by
  obtain ⟨_, s₀, hmade, hrest⟩ := EStateM.run_bind_eq_ok_iff.mp hrun
  obtain ⟨rules, s₁, hrules, hrest⟩ := EStateM.run_bind_eq_ok_iff.mp hrest
  obtain ⟨storage, s₂, hstorage, hrest⟩ := EStateM.run_bind_eq_ok_iff.mp hrest
  obtain ⟨indexes, s₃, hindexes, hrest⟩ := EStateM.run_bind_eq_ok_iff.mp hrest
  cases hrest
  have h₀ := Workspace.Written.of_edit .nil hmade
  obtain ⟨h₁, rfl⟩ := written_of_replaceFile h₀ hrules
  obtain ⟨h₂, rfl⟩ := written_of_replaceFile h₁ hstorage
  obtain ⟨h₃, rfl⟩ := written_of_replaceFile h₂ hindexes
  exact ⟨h₃, rfl⟩

theorem written_of_exportText {p written : Path} {text : String}
    (h : w.Written before session.workspace)
    (hrun : (exportText p text).run session = .ok written after) :
    w.Written ((p.location w.current, .text text) :: before) after.workspace ∧
      written = p.resolve w.current := by
  obtain ⟨_, s, hmade, hrest⟩ := EStateM.run_bind_eq_ok_iff.mp hrun
  exact written_of_replaceFile (h.of_edit hmade) (Action.run_adaptExcept_eq_ok_iff.mp hrest)

theorem written_of_exportWorkbook {p written : Path} {workbook : Workbook}
    (h : w.Written before session.workspace)
    (hrun : (exportWorkbook p workbook).run session = .ok written after) :
    w.Written ((p.location w.current, .workbook workbook) :: before) after.workspace ∧
      written = p.resolve w.current := by
  obtain ⟨hlegal, hlarge⟩ := legal_of_run_exportWorkbook hrun
  rw [exportWorkbook_of_legal hlegal hlarge] at hrun
  obtain ⟨_, s₀, hmade, hrest⟩ := EStateM.run_bind_eq_ok_iff.mp hrun
  obtain ⟨_, s₁, hedit, hrest⟩ := EStateM.run_bind_eq_ok_iff.mp hrest
  obtain ⟨v, hwrite, rfl⟩ := Action.run_edit_eq_ok_iff.mp hedit
  obtain ⟨-, hfree, rfl⟩ := Edit.run_writeFile_eq_ok_iff.mp hwrite
  cases hrest
  have h₀ := h.of_edit hmade
  exact ⟨h₀.put hfree, congrArg (fun current => p.resolve current) h₀.current⟩

theorem written_of_exportTo {report : Report} {format : ReportFormat} {p written : Path}
    (h : w.Written before session.workspace)
    (hrun : (report.exportTo format p).run session = .ok written after) :
    w.Written ((p.location w.current, report.content format) :: before) after.workspace ∧
      written = p.resolve w.current := by
  cases format with
  | structured => exact written_of_exportText h hrun
  | text => exact written_of_exportText h hrun
  | workbook => exact written_of_exportWorkbook h hrun

theorem written_of_exportAsked {r : CompileRequest} {loaded : LoadedSchema}
    {report : Option Path} (h : w.Written before session.workspace)
    (hrun : (r.exportAsked loaded).run session = .ok report after) :
    w.Written ((placed w.current (r.reportFile? loaded).toList).reverse ++ before)
        after.workspace ∧
      report = (r.reportFile? loaded).map fun file => file.1.resolve w.current := by
  rw [CompileRequest.exportAsked] at hrun
  rw [CompileRequest.reportFile?]
  split at hrun
  · next hasked =>
    rw [if_pos hasked]
    rw [exportConfigured] at hrun
    cases hpath : loaded.configuration.report.path with
    | none =>
      rw [hpath] at hrun
      cases hrun
      exact ⟨h, rfl⟩
    | some p =>
      rw [hpath] at hrun
      obtain ⟨written, s, hexport, hrest⟩ := EStateM.run_bind_eq_ok_iff.mp hrun
      cases hrest
      obtain ⟨h, rfl⟩ := written_of_exportTo h (Action.run_adaptExcept_eq_ok_iff.mp hexport)
      exact ⟨h, rfl⟩
  · next hnot =>
    rw [if_neg hnot]
    cases hrun
    exact ⟨h, rfl⟩

/-- **A compilation writes its files and nothing else**, and tells where they are. -/
theorem written_of_run_deliver {r : CompileRequest} {loaded : LoadedSchema}
    {outcome : CompileOutcome}
    (hrun :
      (r.deliver loaded (r.output session.workspace.current loaded.configuration.output)).run
        session = .ok outcome after) :
    session.workspace.Written
        (placed session.workspace.current (r.files session.workspace.current loaded)).reverse
        after.workspace ∧
      outcome.artifacts =
        (r.output session.workspace.current loaded.configuration.output).artifacts
          session.workspace.current ∧
      outcome.report = (r.reportFile? loaded).map fun file =>
        file.1.resolve session.workspace.current := by
  obtain ⟨artifacts, s₀, hwrite, hrest⟩ := EStateM.run_bind_eq_ok_iff.mp hrun
  obtain ⟨report, s₁, hexport, hrest⟩ := EStateM.run_bind_eq_ok_iff.mp hrest
  cases hrest
  obtain ⟨h₀, hartifacts⟩ := written_of_write (Action.run_adaptExcept_eq_ok_iff.mp hwrite)
  obtain ⟨h₁, hreport⟩ := written_of_exportAsked h₀ hexport
  refine ⟨?_, hartifacts, hreport⟩
  rw [CompileRequest.files, placed, List.map_append, List.reverse_append]
  exact h₁

end Writing

/-! ## Delivery -/

/-- A resolved path is that of a file with a content. -/
def Workspace.HasFile (w : Workspace) (p : Path) (content : Content) : Prop :=
  ∃ l, p = .ofLocation l ∧ w.find? l = some (.file content)

/-- A location lies below a directory. -/
def Location.Below (directory l : Location) : Prop := ∃ names, names ≠ [] ∧ l = directory ++ names

/-- A compilation delivers everything: its files are different files, the compiled ones below the
directory for them, each holds what it is to hold, and the files that were read are as before. -/
structure CompileRequest.Delivers (r : CompileRequest) (loaded : LoadedSchema)
    (outcome : CompileOutcome) (before after : Workspace) : Prop where
  distinct : outcome.paths.Nodup
  below : ∀ p ∈ outcome.artifacts.paths, ∃ l, p = .ofLocation l ∧
    ((r.output before.current loaded.configuration.output).directory.location
      before.current).Below l
  rules : after.HasFile outcome.artifacts.rules (.text loaded.schema.compiled.rules)
  storage : after.HasFile outcome.artifacts.storage (.text loaded.schema.compiled.storage)
  indexes : after.HasFile outcome.artifacts.indexes
    (.text (manifestText loaded.schema.compiled.indexes))
  report : ∀ p, outcome.report = some p →
    after.HasFile p (loaded.schema.report.content loaded.configuration.report.format)
  config : ∀ content, before.Holds (.ofText r.config) content →
    after.Holds (.ofText r.config) content
  schema : ∀ file, loaded.configuration.schema.file = some file →
    ∀ content, before.Holds file content → after.Holds file content

/-- A file that was read is not written over, unless by what it holds. -/
def CompileRequest.Spares (r : CompileRequest) (loaded : LoadedSchema) (w : Workspace)
    (source : Path) : Prop :=
  ∀ file ∈ r.files w.current loaded,
    file.1.location w.current = source.location w.current → w.Holds source file.2

/-- A file that lies elsewhere is not written over. -/
theorem CompileRequest.spares_of_notMem {r : CompileRequest} {loaded : LoadedSchema}
    {w : Workspace} {source : Path}
    (h : source.location w.current ∉ r.places w.current loaded.configuration) :
    r.Spares loaded w source := by
  intro file hmem hplace
  rw [← r.map_fst_placed, ← hplace] at h
  exact absurd (List.mem_map_of_mem (List.mem_map_of_mem hmem)) h

/-- The places of the files of a compilation are apart: they are different, those of the compiled
files are below the directory for them, and the files that were read are spared. -/
structure CompileRequest.Apart (r : CompileRequest) (loaded : LoadedSchema) (w : Workspace) :
    Prop where
  distinct : (r.places w.current loaded.configuration).Nodup
  below : ∀ l ∈ (r.output w.current loaded.configuration.output).places w.current,
    ((r.output w.current loaded.configuration.output).directory.location w.current).Below l
  config : r.Spares loaded w (.ofText r.config)
  schema : ∀ file, loaded.configuration.schema.file = some file → r.Spares loaded w file

theorem Path.ofLocation_injective : Function.Injective Path.ofLocation := by
  intro l l' h
  cases h
  rfl

section Delivery

variable {w after : Workspace} {files : List (Path × Content)}

/-- Where the places are different, every file holds its content. -/
theorem Workspace.Written.find?_of_mem
    (h : w.Written (placed w.current files).reverse after)
    (hdistinct : ((placed w.current files).map Prod.fst).Nodup)
    {file : Path × Content} (hmem : file ∈ files) :
    after.find? (file.1.location w.current) = some (.file file.2) := by
  refine h.find?_of_some (Assoc.find?_eq_some_of_mem ?_ ?_)
  · rw [List.map_reverse, List.nodup_reverse]
    exact hdistinct
  · exact List.mem_reverse.mpr (List.mem_map.mpr ⟨file, hmem, rfl⟩)

/-- A file that is not written over, unless by what it holds, is as before. -/
theorem Workspace.Written.holds_of_spared {source : Path}
    (h : w.Written (placed w.current files).reverse after)
    (hspared : ∀ file ∈ files,
      file.1.location w.current = source.location w.current → w.Holds source file.2)
    {content : Content} (hholds : w.Holds source content) : after.Holds source content := by
  rw [Holds, h.current]
  cases hfind : Assoc.find? (source.location w.current) (placed w.current files).reverse with
  | none =>
    have hkept := h.kept_of_none hfind
    rw [hholds] at hkept
    exact hkept.eq_of_some
  | some other =>
    obtain ⟨file, hmem, hfile⟩ :=
      List.mem_map.mp (List.mem_reverse.mp (Assoc.mem_of_find?_eq_some hfind))
    rw [Prod.mk.injEq] at hfile
    obtain ⟨hplace, rfl⟩ := hfile
    have hsame : Entry.file content = .file file.2 :=
      Option.some.inj (hholds.symm.trans (hspared file hmem hplace))
    rw [hsame]
    exact h.find?_of_some hfind

end Delivery

/-! ## When everything is delivered -/

section Outcome

variable {r : CompileRequest} {loaded : LoadedSchema} {outcome : CompileOutcome}
  {w after : Workspace}
  (hwritten : w.Written (placed w.current (r.files w.current loaded)).reverse after)
  (hartifacts : outcome.artifacts =
    (r.output w.current loaded.configuration.output).artifacts w.current)
  (hreport : outcome.report = (r.reportFile? loaded).map fun file => file.1.resolve w.current)

include hartifacts hreport in
theorem nodup_paths_iff :
    outcome.paths.Nodup ↔ (r.places w.current loaded.configuration).Nodup := by
  have hpaths : outcome.paths =
      (r.places w.current loaded.configuration).map Path.ofLocation := by
    rw [← r.map_fst_placed, CompileOutcome.paths, hartifacts, hreport, CompileRequest.files]
    cases r.reportFile? loaded <;> rfl
  rw [hpaths, List.nodup_map_iff Path.ofLocation_injective]

include hartifacts in
theorem forall_below_iff (directory : Location) :
    (∀ p ∈ outcome.artifacts.paths, ∃ l, p = .ofLocation l ∧ directory.Below l) ↔
      ∀ l ∈ (r.output w.current loaded.configuration.output).places w.current,
        directory.Below l := by
  rw [hartifacts]
  simp [Artifacts.paths, OutputSettings.artifacts, OutputSettings.places, Path.resolve,
    Path.ofLocation_injective.eq_iff]

omit hartifacts hreport in
theorem content_of_reportFile? {file : Path × Content} (h : r.reportFile? loaded = some file) :
    file.2 = loaded.schema.report.content loaded.configuration.report.format := by
  rw [CompileRequest.reportFile?] at h
  split at h
  · obtain ⟨p, -, rfl⟩ := Option.map_eq_some_iff.mp h
    rfl
  · cases h

include hwritten hartifacts hreport in
theorem delivers_of_apart (h : r.Apart loaded w) : r.Delivers loaded outcome w after := by
  have hdistinct := h.distinct
  rw [← r.map_fst_placed] at hdistinct
  have hfile (p : Path) (content : Content) (hmem : (p, content) ∈ r.files w.current loaded) :
      after.HasFile (p.resolve w.current) content :=
    ⟨_, rfl, hwritten.find?_of_mem hdistinct hmem⟩
  have hcompiled (p : Path) (content : Content)
      (hmem : (p, content) ∈
        loaded.schema.compiled.files (r.output w.current loaded.configuration.output)) :
      after.HasFile (p.resolve w.current) content :=
    hfile p content (List.mem_append_left _ hmem)
  constructor
  case distinct => exact (nodup_paths_iff hartifacts hreport).mpr h.distinct
  case below => exact (forall_below_iff hartifacts _).mpr h.below
  case rules =>
    rw [hartifacts]
    exact hcompiled _ _ (by simp [Compiled.files])
  case storage =>
    rw [hartifacts]
    exact hcompiled _ _ (by simp [Compiled.files])
  case indexes =>
    rw [hartifacts]
    exact hcompiled _ _ (by simp [Compiled.files])
  case report =>
    intro p hp
    obtain ⟨⟨place, content⟩, hreported, rfl⟩ :=
      Option.map_eq_some_iff.mp (hreport.symm.trans hp)
    obtain rfl := content_of_reportFile? hreported
    exact hfile _ _ (List.mem_append_right _ (by simp [hreported]))
  case config => exact fun _ => hwritten.holds_of_spared h.config
  case schema => exact fun file hfile _ => hwritten.holds_of_spared (h.schema file hfile)

include hwritten in
/-- A source that is as before has been spared. -/
theorem spares_of_kept
    (hdistinct : (r.places w.current loaded.configuration).Nodup)
    {source : Path} (hsource : ∃ content, w.Holds source content)
    (hkept : ∀ content, w.Holds source content → after.Holds source content) :
    r.Spares loaded w source := by
  intro file hmem hplace
  obtain ⟨content, hholds⟩ := hsource
  have hafter := hkept content hholds
  rw [← r.map_fst_placed] at hdistinct
  rw [Workspace.Holds, hwritten.current, ← hplace, hwritten.find?_of_mem hdistinct hmem] at hafter
  cases hafter
  exact hholds

include hwritten hartifacts hreport in
theorem apart_of_delivers
    (hload : LoadedSchema.load w (.ofText r.config) = .ok loaded)
    (h : r.Delivers loaded outcome w after) : r.Apart loaded w := by
  have hdistinct := (nodup_paths_iff hartifacts hreport).mp h.distinct
  have hconfig := LoadedSchema.configuration_load hload
  refine ⟨hdistinct, (forall_below_iff hartifacts _).mp h.below, ?_, ?_⟩
  · obtain ⟨text, htext⟩ := Configuration.exists_readText_of_load hconfig
    obtain ⟨s, hholds⟩ := Workspace.holds_of_readText htext
    exact spares_of_kept hwritten hdistinct ⟨_, hholds⟩ h.config
  · intro file hfile
    have htext := Configuration.readText_schemaFile_of_load hconfig hfile
    obtain ⟨s, hholds⟩ := Workspace.holds_of_readText htext
    exact spares_of_kept hwritten hdistinct ⟨_, hholds⟩ (h.schema file hfile)

end Outcome

/-- A compilation that comes to an end has loaded a schema, accepted it and written its files. -/
theorem run_compileSchema_eq_ok {r : CompileRequest} {session after : Session}
    {outcome : CompileOutcome} (hrun : (compileSchema r).run session = .ok outcome after) :
    ∃ loaded, LoadedSchema.load session.workspace (.ofText r.config) = .ok loaded ∧
      (r.deliver loaded (r.output session.workspace.current loaded.configuration.output)).run
        (session.afterCompiling loaded) = .ok outcome after := by
  rw [run_compileSchema] at hrun
  split at hrun
  · cases hrun
  · next loaded hload =>
    split at hrun
    · exact ⟨loaded, hload, hrun⟩
    · cases hrun

/-- **When a compilation delivers everything.** A compilation that comes to an end leaves, at every
location to which a file of its goes, the content that was written there last, and keeps everything
else, other than that directories were made. Its files are different and below their directory,
each with its own content, and the configuration and the schema are as before, exactly if the
places of the files are apart. -/
theorem delivers_iff_apart {r : CompileRequest} {session after : Session}
    {outcome : CompileOutcome} (hrun : (compileSchema r).run session = .ok outcome after) :
    ∃ loaded, LoadedSchema.load session.workspace (.ofText r.config) = .ok loaded ∧
      (∀ l,
        match Assoc.find? l
          (placed session.workspace.current (r.files session.workspace.current loaded)).reverse with
        | some content => after.workspace.find? l = some (.file content)
        | none => Workspace.Kept (session.workspace.find? l) (after.workspace.find? l)) ∧
      (r.Delivers loaded outcome session.workspace after.workspace ↔
        r.Apart loaded session.workspace) := by
  obtain ⟨loaded, hload, hdeliver⟩ := run_compileSchema_eq_ok hrun
  obtain ⟨hwritten, hartifacts, hreport⟩ :=
    @written_of_run_deliver (session.afterCompiling loaded) _ _ _ _ hdeliver
  refine ⟨loaded, hload, fun l => ?_, apart_of_delivers hwritten hartifacts hreport hload,
    delivers_of_apart hwritten hartifacts hreport⟩
  split
  · next hfind => exact hwritten.find?_of_some hfind
  · next hfind => exact hwritten.kept_of_none hfind

/-! ### Names that are apart, and names that are not -/

/-- A workspace with one configuration, in a directory of its own. -/
def workspaceWith (text : String) : Workspace where
  current := ["d"]
  entries := [(["d"], .directory), (["d", "c"], .file (.text text))]

/-- A configuration that leaves their usual names to the files, and has a place for the report. -/
def separateNames : String := "schema: \x7binline: 'a: b'\x7d\nreport: \x7bpath: r\x7d\n"

/-- That configuration as it is loaded. -/
def separateConfiguration : Configuration where
  path := .ofText "c"
  schema := { text := "a: b", file := none }
  output := { directory := .ofLocation ["d"] }
  report := { format := .text, path := some (.ofLocation ["d", "r"]) }
  failOnViolations := true

theorem separateConfiguration_apart (schema : Schema) :
    CompileRequest.Apart { config := "c" } ⟨separateConfiguration, schema⟩
      (workspaceWith separateNames) := by
  have hcompiled : separateConfiguration.output.places ["d"] =
      [["d", "firestore.rules"], ["d", "storage.rules"], ["d", "firestore.indexes.json"]] := by
    decide +kernel
  have hplaces : CompileRequest.places { config := "c" } ["d"] separateConfiguration =
      [["d", "firestore.rules"], ["d", "storage.rules"], ["d", "firestore.indexes.json"],
        ["d", "r"]] := by
    show separateConfiguration.output.places ["d"] ++ [["d", "r"]] = _
    rw [hcompiled]
    rfl
  constructor
  case distinct =>
    show (CompileRequest.places _ ["d"] separateConfiguration).Nodup
    rw [hplaces]
    decide
  case below =>
    show ∀ l ∈ separateConfiguration.output.places ["d"], Location.Below ["d"] l
    rw [hcompiled]
    simp [Location.Below]
  case config =>
    refine CompileRequest.spares_of_notMem ?_
    show (Path.ofText "c").location ["d"] ∉ CompileRequest.places _ ["d"] separateConfiguration
    rw [hplaces]
    decide +kernel
  case schema => nofun

theorem separateNames_delivered :
    ∃ outcome after loaded,
      (compileSchema { config := "c" }).run { workspace := workspaceWith separateNames } =
        .ok outcome after ∧
      LoadedSchema.load (workspaceWith separateNames) (.ofText "c") = .ok loaded ∧
      CompileRequest.Delivers { config := "c" } loaded outcome (workspaceWith separateNames)
        after.workspace := by
  have hconfig : Configuration.load (workspaceWith separateNames) (.ofText "c") =
      .ok separateConfiguration := by decide +kernel
  obtain ⟨outcome, after, hrun, -⟩ : ∃ outcome after,
      (compileSchema { config := "c" }).run { workspace := workspaceWith separateNames } =
        .ok outcome after ∧ true = true := Action.exists_run_of_test (by decide +kernel)
  obtain ⟨⟨configuration, schema⟩, hload, -, hiff⟩ := delivers_iff_apart hrun
  obtain rfl : configuration = separateConfiguration :=
    Except.ok.inj ((LoadedSchema.configuration_load hload).symm.trans hconfig)
  refine ⟨outcome, after, _, hrun, hload, ?_⟩
  rw [hiff]
  exact separateConfiguration_apart schema

/-- A configuration that gives its own place, outside of the directory for the compiled files, to
the rules of both kinds. -/
def clashingNames : String :=
  "schema: \x7binline: 'a: b'\x7d\n" ++
    "output: \x7bdirectory: o, firestore_rules: ../c, storage_rules: ../c\x7d\n"

/-- A compilation does not always deliver everything. The rules of both kinds have one path, which
is not below the directory, and the configuration is gone. -/
theorem clashingNames_lost :
    ∃ outcome after,
      (compileSchema { config := "c" }).run { workspace := workspaceWith clashingNames } =
        .ok outcome after ∧
      outcome.artifacts.rules = .ofLocation ["d", "c"] ∧
      outcome.artifacts.storage = .ofLocation ["d", "c"] ∧
      after.workspace.find? ["d", "c"] = some (.file (.text storageRules)) ∧
      ∀ loaded, ¬ CompileRequest.Delivers { config := "c" } loaded outcome
        (workspaceWith clashingNames) after.workspace := by
  obtain ⟨outcome, after, hrun, htest⟩ : ∃ outcome after,
      (compileSchema { config := "c" }).run { workspace := workspaceWith clashingNames } =
        .ok outcome after ∧
      decide (outcome.artifacts.rules = .ofLocation ["d", "c"] ∧
        outcome.artifacts.storage = .ofLocation ["d", "c"] ∧
        after.workspace.find? ["d", "c"] = some (.file (.text storageRules))) = true :=
    Action.exists_run_of_test (by decide +kernel)
  obtain ⟨hrules, hstorage, hleft⟩ := of_decide_eq_true htest
  refine ⟨outcome, after, hrun, hrules, hstorage, hleft, fun loaded h => ?_⟩
  have hdistinct := h.distinct
  rw [CompileOutcome.paths, Artifacts.paths, hrules, hstorage] at hdistinct
  simp at hdistinct

end DocSchema
