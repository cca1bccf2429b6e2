import DocSchema.Proofs.Config.Silent
import DocSchema.Proofs.Text.Blank
import DocSchema.Proofs.Yaml.Writer.Values

/-!
# Configurations that are accepted

What is known of a configuration that has been loaded, so that nothing that uses it has to check it
again: where its schema is from, that its directory and its report have absolute paths, and that
its files have proper names. Every statement is about the document in the file of the configuration.

## Main definitions

* `Setting.Says`: the text that a document has for a setting
* `Follows`: the path that such a text stands for
* `SchemaSource.Accepted`, `OutputSettings.Accepted`, `ReportSettings.Accepted`,
  `Configuration.Accepted`: what holds of the parts of a configuration and of the whole

## Main results

* `accepted_and_silent`: configurations that are loaded are accepted, and sections that say nothing
  make no difference, unless the configuration is its own schema
* `selfNamed_differ`: such a configuration
-/

namespace DocSchema

open Text (IsTrimmed)

/-! ## Settings -/

namespace Setting

variable {s : Setting} {entries : Entries} {default text : String}

/-- A setting has a value, which is neither null nor empty. -/
def IsTruthy (s : Setting) (entries : Entries) : Prop :=
  ∃ v, s.value? entries = some v ∧ v.isTruthy = true

theorem isTruthy_of_given? {v : Value} (h : s.given? entries = some v) : s.IsTruthy entries :=
  ⟨v, Option.filter_eq_some_iff.mp h⟩

theorem not_isTruthy_of_given? (h : s.given? entries = none) : ¬ s.IsTruthy entries := by
  rintro ⟨v, hv⟩
  cases h.symm.trans (Option.filter_eq_some_iff.mpr hv)

/-- A setting has a text, with something left of it when it is trimmed. -/
def Says (s : Setting) (entries : Entries) (text : String) : Prop :=
  ∃ raw, s.value? entries = some (.text raw) ∧ text = Text.strip raw ∧ text ≠ ""

/-- What is said is not blank and trimmed. -/
theorem Says.ne_empty (h : s.Says entries text) : text ≠ "" := by
  obtain ⟨_, _, _, h⟩ := h
  exact h

theorem Says.isTrimmed (h : s.Says entries text) : IsTrimmed text := by
  obtain ⟨raw, _, rfl, _⟩ := h
  exact Text.isTrimmed_strip raw

theorem textOr_eq_ok_iff :
    s.textOr default entries = .ok text ↔
      s.Says entries text ∨ s.value? entries = none ∧ text = default := by
  rw [textOr, Says]
  cases s.value? entries with
  | none => simp [eq_comm]
  | some v =>
    cases v with
    | text raw =>
      by_cases h : Text.strip raw = ""
      · simp [h]
      · simp only [if_neg h, Except.ok.injEq, Option.some.injEq, Value.text.injEq,
          exists_eq_left', reduceCtorEq, false_and, or_false]
        constructor
        · rintro rfl
          exact ⟨rfl, h⟩
        · exact fun htext => htext.1.symm
    | _ => simp

/-- A text is had exactly if it is said. -/
theorem text?_eq_some_iff {said : Option String} (h : s.text? entries = .ok said) :
    said = some text ↔ s.Says entries text := by
  rw [text?] at h
  rw [Says]
  cases hvalue : s.value? entries with
  | none =>
    rw [hvalue] at h
    cases h
    simp
  | some v =>
    rw [hvalue] at h
    cases v with
    | null =>
      cases h
      simp
    | text raw =>
      cases h
      by_cases h : Text.strip raw = ""
      · simp [h]
      · simp only [if_neg h, Option.some.injEq, Value.text.injEq, exists_eq_left']
        constructor
        · rintro rfl
          exact ⟨rfl, h⟩
        · exact fun htext => htext.1.symm
    | _ => cases h

/-- A file name is proper if its default is. -/
theorem proper_of_fileNameOr {name : String} (h : s.fileNameOr default entries = .ok name)
    (hdefault : default ≠ "" ∧ IsTrimmed default) :
    name ≠ "" ∧ IsTrimmed name ∧ (Path.ofText name).isAbsolute = false := by
  obtain ⟨text, hname, h⟩ := Except.bind_eq_ok_iff.mp h
  split at h
  · cases h
  · next habsolute =>
    cases h
    rw [Bool.not_eq_true] at habsolute
    obtain hsaid | ⟨-, rfl⟩ := textOr_eq_ok_iff.mp hname
    · exact ⟨hsaid.ne_empty, hsaid.isTrimmed, habsolute⟩
    · exact ⟨hdefault.1, hdefault.2, habsolute⟩

end Setting

/-! ## Paths -/

/-- A path is the one that a text in a configuration stands for: one that is absolute is kept, and
one that is relative leads from the directory of the configuration file to a place. -/
structure Follows (current : Location) (base : Path) (raw : String) (p : Path) : Prop where
  absolute : p.isAbsolute = true
  kept : (Path.ofText raw).isAbsolute = true → p = .ofText raw
  resolved : (Path.ofText raw).isAbsolute = false →
    p = (base.join (.ofText raw)).resolve current

theorem follows_pathFrom (current : Location) (base : Path) (raw : String) :
    Follows current base raw (pathFrom current base raw) := by
  rw [pathFrom]
  cases h : (Path.ofText raw).isAbsolute with
  | true => exact ⟨h, fun _ => rfl, fun hrelative => Bool.noConfusion (h.symm.trans hrelative)⟩
  | false =>
    exact ⟨Path.resolve_isAbsolute _ _, fun habsolute => Bool.noConfusion (h.symm.trans habsolute),
      fun _ => rfl⟩

/-! ## Sections -/

/-- What holds of a schema text that a section has led to. -/
structure SchemaSource.Accepted (w : Workspace) (base : Path) (entries : Entries)
    (s : SchemaSource) : Prop where
  exactlyOne : Xor (Setting.schemaInline.IsTruthy entries) (Setting.schemaPath.IsTruthy entries)
  file_eq_none_iff : s.file = none ↔ Setting.schemaInline.IsTruthy entries
  absolute : ∀ file ∈ s.file, file.isAbsolute = true
  exists_file : ∀ file ∈ s.file, w.exists? file = .ok true ∧ w.readText file = .ok s.text
  notBlank : s.file ≠ none → Text.isBlank s.text = false
  followed : ∀ file ∈ s.file, ∃ raw, Setting.schemaPath.value? entries = some (.text raw) ∧
    Follows w.current base raw file

/-- What holds of the settings that a section for the compiled files has led to. -/
structure OutputSettings.Accepted (current : Location) (base : Path) (entries : Entries)
    (o : OutputSettings) : Prop where
  absolute : o.directory.isAbsolute = true
  directory_of_said : ∀ text, Setting.outputDirectory.Says entries text →
    Follows current base text o.directory
  directory_of_nothing : (∀ text, ¬ Setting.outputDirectory.Says entries text) →
    o.directory = base
  names : ∀ name ∈ [o.rulesName, o.storageName, o.indexesName],
    name ≠ "" ∧ IsTrimmed name ∧ (Path.ofText name).isAbsolute = false

/-- What holds of the settings that a section for the report has led to. -/
structure ReportSettings.Accepted (current : Location) (base : Path) (entries : Entries)
    (r : ReportSettings) : Prop where
  format_mem : r.format.name ∈ ["structured", "text", "xlsx"]
  format_eq : ∃ name, (Setting.reportFormat.Says entries name ∨
    Setting.reportFormat.value? entries = none ∧ name = "text") ∧ r.format.name = Text.lower name
  absolute : ∀ p ∈ r.path, p.isAbsolute = true
  path_of_said : ∀ text, Setting.reportPath.Says entries text →
    ∃ p, r.path = some p ∧ Follows current base text p
  path_of_nothing : (∀ text, ¬ Setting.reportPath.Says entries text) → r.path = none

theorem Workspace.exists?_of_readText {w : Workspace} {p : Path} {text : String}
    (h : w.readText p = .ok text) : w.exists? p = .ok true := by
  rw [readText] at h
  split at h
  · next hread =>
    obtain ⟨entry, hentry, hfile⟩ := Except.bind_eq_ok_iff.mp hread
    rw [exists?, hentry]
    cases entry with
    | none => cases hfile
    | some entry => rfl
  all_goals cases h

theorem SchemaSource.accepted_of_load {w : Workspace} {base : Path} {entries : Entries}
    {s : SchemaSource} (h : load w base entries = .ok s) : s.Accepted w base entries := by
  have hload := h
  rw [load] at h
  split at h
  case h_2 value hinline hpath =>
    cases h
    have hfile : (ofInline value).file = none := by cases value <;> rfl
    have htruthy := Setting.isTruthy_of_given? hinline
    exact {
      exactlyOne := .inl ⟨htruthy, Setting.not_isTruthy_of_given? hpath⟩
      file_eq_none_iff := iff_of_true hfile htruthy
      absolute := by simp [hfile]
      exists_file := by simp [hfile]
      notBlank := fun hsome => absurd hfile hsome
      followed := by simp [hfile] }
  case h_3 raw hinline hpath =>
    split at h
    · cases h
    · rw [ofFile_eq] at h
      obtain ⟨text, htext, h⟩ := Except.bind_eq_ok_iff.mp h
      split at h
      · cases h
      · next hblank =>
        cases h
        rw [Workspace.textOr_eq_ok_iff] at htext
        have hnot := Setting.not_isTruthy_of_given? hinline
        have hfollows := follows_pathFrom w.current base raw
        exact {
          exactlyOne := .inr ⟨Setting.isTruthy_of_given? hpath, hnot⟩
          file_eq_none_iff := iff_of_false (Option.some_ne_none _) hnot
          absolute := by
            rintro _ ⟨⟩
            exact hfollows.absolute
          exists_file := by
            rintro _ ⟨⟩
            exact ⟨Workspace.exists?_of_readText htext, htext⟩
          notBlank := fun _ => Bool.eq_false_iff.mpr hblank
          followed := by
            rintro _ ⟨⟩
            exact ⟨raw, (Option.filter_eq_some_iff.mp hpath).1, hfollows⟩ }
  all_goals cases h

theorem OutputSettings.accepted_of_load {current : Location} {base : Path} {entries : Entries}
    {o : OutputSettings} (hbase : base.isAbsolute = true)
    (h : load current base entries = .ok o) : o.Accepted current base entries := by
  obtain ⟨said, hsaid, h⟩ := Except.bind_eq_ok_iff.mp h
  obtain ⟨rulesName, hrules, h⟩ := Except.bind_eq_ok_iff.mp h
  obtain ⟨storageName, hstorage, h⟩ := Except.bind_eq_ok_iff.mp h
  obtain ⟨indexesName, hindexes, h⟩ := Except.bind_eq_ok_iff.mp h
  cases h
  refine {
    absolute := ?absolute
    directory_of_said := fun text htext => ?said
    directory_of_nothing := fun hnothing => ?nothing
    names := ?names }
  case absolute =>
    cases said with
    | none => exact hbase
    | some text => exact (follows_pathFrom current base text).absolute
  case said =>
    rw [(Setting.text?_eq_some_iff hsaid).mpr htext]
    exact follows_pathFrom current base text
  case nothing =>
    cases said with
    | none => rfl
    | some text => exact absurd ((Setting.text?_eq_some_iff hsaid).mp rfl) (hnothing text)
  case names =>
    have hdefaults : ∀ name ∈ ["firestore.rules", "storage.rules", "firestore.indexes.json"],
        name ≠ "" ∧ Text.strip name = name := by decide
    have hproper (name : String) (hname : name ∈ ["firestore.rules", "storage.rules",
        "firestore.indexes.json"]) : name ≠ "" ∧ IsTrimmed name :=
      ⟨(hdefaults name hname).1, (hdefaults name hname).2 ▸ Text.isTrimmed_strip name⟩
    simp only [List.forall_mem_cons, List.not_mem_nil, false_implies, implies_true, and_true]
    exact ⟨Setting.proper_of_fileNameOr hrules (hproper _ (by simp)),
      Setting.proper_of_fileNameOr hstorage (hproper _ (by simp)),
      Setting.proper_of_fileNameOr hindexes (hproper _ (by simp))⟩

theorem ReportFormat.name_of_ofName? {name : String} {format : ReportFormat}
    (h : ofName? name = some format) : format.name = name := by
  have hfound := List.find?_some h
  exact eq_of_beq hfound

theorem ReportFormat.name_mem (format : ReportFormat) :
    format.name ∈ ["structured", "text", "xlsx"] := by
  cases format <;> decide

theorem ReportSettings.accepted_of_load {current : Location} {base : Path} {entries : Entries}
    {r : ReportSettings} (h : load current base entries = .ok r) :
    r.Accepted current base entries := by
  obtain ⟨name, hname, h⟩ := Except.bind_eq_ok_iff.mp h
  split at h
  · cases h
  · next format hformat =>
    obtain ⟨said, hsaid, h⟩ := Except.bind_eq_ok_iff.mp h
    cases h
    refine {
      format_mem := format.name_mem
      format_eq := ⟨name, Setting.textOr_eq_ok_iff.mp hname, ReportFormat.name_of_ofName? hformat⟩
      absolute := ?absolute
      path_of_said := fun text htext => ?said
      path_of_nothing := fun hnothing => ?nothing }
    case absolute =>
      cases said with
      | none => nofun
      | some text =>
        rintro _ ⟨⟩
        exact (follows_pathFrom current base text).absolute
    case said =>
      rw [(Setting.text?_eq_some_iff hsaid).mpr htext]
      exact ⟨_, rfl, follows_pathFrom current base text⟩
    case nothing =>
      cases said with
      | none => rfl
      | some text => exact absurd ((Setting.text?_eq_some_iff hsaid).mp rfl) (hnothing text)

/-! ## Configurations -/

namespace Configuration

/-- The directory of the file of a configuration. -/
def home (w : Workspace) (path : Path) : Path := (path.resolve w.current).parent

/-- What holds of a configuration that a document has led to. -/
structure Accepted (w : Workspace) (path : Path) (document : Entries) (c : Configuration) :
    Prop where
  path_eq : c.path = path
  home_isAbsolute : (home w path).isAbsolute = true
  schema : ∃ entries, requiredSection document .schema = .ok entries ∧
    c.schema.Accepted w (home w path) entries
  output : ∃ entries, optionalSection document .output = .ok entries ∧
    c.output.Accepted w.current (home w path) entries
  report : ∃ entries, optionalSection document .report = .ok entries ∧
    c.report.Accepted w.current (home w path) entries

theorem accepted_of_ofEntries {w : Workspace} {path : Path} {document : Entries}
    {c : Configuration} (h : ofEntries w path document = .ok c) : c.Accepted w path document := by
  obtain ⟨entries, hentries, h⟩ := Except.bind_eq_ok_iff.mp h
  obtain ⟨schema, hschema, h⟩ := Except.bind_eq_ok_iff.mp h
  obtain ⟨output, houtput, h⟩ := Except.bind_eq_ok_iff.mp h
  obtain ⟨report, hreport, h⟩ := Except.bind_eq_ok_iff.mp h
  obtain ⟨fail, -, h⟩ := Except.bind_eq_ok_iff.mp h
  cases h
  obtain ⟨compiled, hcompiled, houtput⟩ :=
    Except.bind_eq_ok_iff.mp (Except.mapError_eq_ok_iff.mp houtput)
  obtain ⟨reported, hreported, hreport⟩ :=
    Except.bind_eq_ok_iff.mp (Except.mapError_eq_ok_iff.mp hreport)
  have hhome : (home w path).isAbsolute = true := rfl
  exact {
    path_eq := rfl
    home_isAbsolute := hhome
    schema := ⟨entries, Except.mapError_eq_ok_iff.mp hentries,
      SchemaSource.accepted_of_load hschema⟩
    output := ⟨compiled, hcompiled, OutputSettings.accepted_of_load hhome houtput⟩
    report := ⟨reported, hreported, ReportSettings.accepted_of_load hreport⟩ }

/-- **Accepted configurations.** A configuration that is loaded is accepted for the document in its
file. In such a document it makes no difference whether a section other than that of the schema is
removed, null or empty; nor does it in the file, unless the configuration names its own file for its
schema. -/
theorem accepted_and_silent (w : Workspace) (path : Path) :
    (∀ c, load w path = .ok c → ∃ document, DocumentAt w path document ∧
      ofEntries w path document = .ok c ∧ c.Accepted w path document) ∧
    ∀ (part : Section) (document first second : Entries), part ≠ .schema →
      Silenced part document first → Silenced part document second →
      ofEntries w path second = ofEntries w path first ∧
      ∀ content, DocumentAt w path first →
        DocumentAt (w.put (path.location w.current) (.file content)) path second →
        (∀ file, NamesSchemaFile w path file →
          file.location w.current ≠ path.location w.current) →
        load (w.put (path.location w.current) (.file content)) path = load w path := by
  refine ⟨fun c hload => ?_, fun part document first second hpart hfirst hsecond => ⟨?_, ?_⟩⟩
  · obtain ⟨document, hdocument, hc⟩ := exists_documentAt_of_load hload
    exact ⟨document, hdocument, hc, accepted_of_ofEntries hc⟩
  · exact ofEntries_eq_of_silenced hpart hfirst hsecond w path
  · exact fun content hat hafter hother =>
      load_put_of_silenced hpart hfirst hsecond hat hafter hother

/-! ### A configuration that names a file -/

/-- A workspace with a configuration and a schema. -/
def pairWorkspace (text : String) : Workspace where
  current := []
  entries := [(["c"], .file (.text text)), (["s"], .file (.text "a: b\n"))]

/-- A document of a configuration that names a file for its schema, and has some further
sections. -/
def namingDocument (file : String) (others : Entries) : Entries :=
  (.text "schema", .map [(.text "path", .text file)]) :: others

/-- A configuration that names a file for its schema, and says nothing else. -/
def namingConfiguration (file : Path) (text : String) : Configuration where
  path := .ofText "c"
  schema := { text, file := some file }
  output := { directory := .ofLocation [] }
  report := { format := .text, path := none }
  failOnViolations := true

/-- The document with an empty section for the output. -/
def silentDocument (file : String) : Entries := namingDocument file [(.text "output", .map [])]

/-- What is written of the documents is read back. -/
theorem read_naming {file text : String} {others : Entries}
    (hothers : others = [] ∨ others = [(.text "output", .map [])])
    (hwrite : Yaml.write (.map (namingDocument file others)) = text) :
    Yaml.read text = .ok (.map (namingDocument file others)) := by
  have hempty : ∀ e ∈ others, e = (.text "output", .map []) := by
    rcases hothers with rfl | rfl
    · exact List.forall_mem_nil _
    · exact List.forall_mem_singleton.mpr rfl
  have hdistinct : Assoc.Distinct Value.sameKey (namingDocument file others) := by
    rcases hothers with rfl | rfl
    · exact List.pairwise_singleton _ _
    · exact List.pairwise_pair.mpr rfl
  have hkey {s : String} (h : s.length ≤ 102) {indent : Nat} (hindent : indent < Yaml.Page.width) :
      Yaml.Writer.KeptScalar (Yaml.Writer.KeepsEntryKey indent) (.text s) :=
    .text (Yaml.Writer.keepsEntryKey_of_length_le hindent h)
  have hschema (flat : Bool) : Yaml.Writer.Kept flat 2 (.map [(.text "path", .text file)]) :=
    .map (List.forall_mem_singleton.mpr (hkey (by decide) (by decide)))
      (List.forall_mem_singleton.mpr (.scalar (.text (Yaml.Writer.keepsText_of_lt (by decide) _))))
  have hproper : (Value.map [(.text "path", .text file)]).Proper :=
    .map (List.pairwise_singleton _ _) (List.forall_mem_singleton.mpr (.text _))
      (List.forall_mem_singleton.mpr (.text _))
  subst hwrite
  refine Yaml.Writer.read_write
    (.map (List.forall_mem_cons.mpr ⟨hkey (by decide) (by decide), fun e he => ?_⟩)
      (List.forall_mem_cons.mpr ⟨hschema _, fun e he => ?_⟩))
    (.map hdistinct (List.forall_mem_cons.mpr ⟨.text _, fun e he => ?_⟩)
      (List.forall_mem_cons.mpr ⟨hproper, fun e he => ?_⟩)) rfl nofun
  · exact hempty e he ▸ hkey (by decide) (by decide)
  · exact hempty e he ▸ .map nofun nofun
  · exact hempty e he ▸ .text "output"
  · exact hempty e he ▸ .map .nil nofun nofun

/-- The configuration of a schema in another file is accepted, and an empty section in it makes no
difference. -/
theorem separateSchema_accepted :
    load (pairWorkspace "schema:\n  path: s\n") (.ofText "c") =
        .ok (namingConfiguration (.ofLocation ["s"]) "a: b\n") ∧
      (∃ document, DocumentAt (pairWorkspace "schema:\n  path: s\n") (.ofText "c") document ∧
        (namingConfiguration (.ofLocation ["s"]) "a: b\n").Accepted
          (pairWorkspace "schema:\n  path: s\n") (.ofText "c") document) ∧
      load (pairWorkspace "schema:\n  path: s\noutput: \x7b\x7d\n") (.ofText "c") =
        load (pairWorkspace "schema:\n  path: s\n") (.ofText "c") := by
  have hload : load (pairWorkspace "schema:\n  path: s\n") (.ofText "c") =
      .ok (namingConfiguration (.ofLocation ["s"]) "a: b\n") := by decide +kernel
  have hread : Yaml.read "schema:\n  path: s\n" = .ok (.map (namingDocument "s" [])) :=
    read_naming (.inl rfl) (by decide +kernel)
  have hreadSilent : Yaml.read "schema:\n  path: s\noutput: \x7b\x7d\n" =
      .ok (.map (silentDocument "s")) := read_naming (.inr rfl) (by decide +kernel)
  obtain ⟨haccepted, hsilent⟩ :=
    accepted_and_silent (pairWorkspace "schema:\n  path: s\n") (.ofText "c")
  obtain ⟨document, hdocument, -, hc⟩ := haccepted _ hload
  refine ⟨hload, ⟨document, hdocument, hc⟩, ?_⟩
  refine (hsilent .output (namingDocument "s" []) (namingDocument "s" []) (silentDocument "s") nofun
    .removed .empty).2 (.text "schema:\n  path: s\noutput: \x7b\x7d\n") ⟨_, _, rfl, hread, rfl⟩
    ⟨_, _, rfl, hreadSilent, rfl⟩ ?_
  rintro file ⟨text, value, all, entries, htext, hvalue, hall, hentries, -, raw, hraw, -, rfl⟩
  cases htext
  cases hread.symm.trans hvalue
  cases hall
  cases hentries
  cases hraw
  decide +kernel

/-- **A configuration that is its own schema.** An empty section in it makes a difference: the text
of its schema is its own. -/
theorem selfNamed_differ :
    Silenced .output (silentDocument "c") (namingDocument "c" []) ∧
      Silenced .output (silentDocument "c") (silentDocument "c") ∧
      DocumentAt (pairWorkspace "schema:\n  path: c\n") (.ofText "c") (namingDocument "c" []) ∧
      DocumentAt (pairWorkspace "schema:\n  path: c\noutput: \x7b\x7d\n") (.ofText "c")
        (silentDocument "c") ∧
      load (pairWorkspace "schema:\n  path: c\n") (.ofText "c") =
        .ok (namingConfiguration (.ofLocation ["c"]) "schema:\n  path: c\n") ∧
      load (pairWorkspace "schema:\n  path: c\noutput: \x7b\x7d\n") (.ofText "c") =
        .ok (namingConfiguration (.ofLocation ["c"])
          "schema:\n  path: c\noutput: \x7b\x7d\n") ∧
      namingConfiguration (.ofLocation ["c"]) "schema:\n  path: c\n" ≠
        namingConfiguration (.ofLocation ["c"])
          "schema:\n  path: c\noutput: \x7b\x7d\n" :=
  ⟨.removed, .empty,
    ⟨_, .map (namingDocument "c" []), rfl, read_naming (.inl rfl) (by decide +kernel), rfl⟩,
    ⟨_, .map (silentDocument "c"), rfl, read_naming (.inr rfl) (by decide +kernel), rfl⟩,
    by decide +kernel, by decide +kernel, by decide⟩

end Configuration

end DocSchema
