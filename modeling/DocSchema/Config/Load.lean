import DocSchema.Config.Fault
import DocSchema.Text.Blank
import DocSchema.Text.Lowercase
import DocSchema.Yaml.Writer

/-!
# Loading a configuration

A configuration is read from a document with up to four sections, of which only that of the schema
is required. Relative paths are followed from the directory of the configuration file.

## Main definitions

* `SchemaSource.load`, `OutputSettings.load`, `ReportSettings.load`, `loadFailOnViolations`: what
  the sections say
* `Configuration.load`: the configuration in a file

## Implementation notes

The sections are read in the order schema, output, report, validation, and the first fault counts.
Texts are trimmed, other than the path and the text of the schema.
-/

namespace DocSchema

/-! ## Sections and settings -/

/-- The entries of a section that has to be there. -/
def requiredSection (document : Entries) (part : Section) : Except ConfigFault Entries :=
  match Value.lookup part.name document with
  | some (.map entries) => .ok entries
  | _ => .error (.sectionRequired part)

/-- The entries of a section; one that is missing or null has none. -/
def optionalSection (document : Entries) (part : Section) : Except ConfigFault Entries :=
  match Value.lookup part.name document with
  | none => .ok []
  | some .null => .ok []
  | some (.map entries) => .ok entries
  | some _ => .error (.sectionNotMapping part)

namespace Setting

/-- The value of a setting in its section. -/
def value? (s : Setting) (entries : Entries) : Option Value := Value.lookup s.key entries

/-- The value of a setting, unless it is null or empty. -/
def given? (s : Setting) (entries : Entries) : Option Value :=
  (s.value? entries).filter Value.isTruthy

/-- The trimmed text of a setting, which may not be blank; `default` if there is no value. -/
def textOr (s : Setting) (default : String) (entries : Entries) : Except ConfigFault String :=
  match s.value? entries with
  | none => .ok default
  | some (.text raw) =>
    let text := Text.strip raw
    if text = "" then .error (.blank s) else .ok text
  | some _ => .error (.notText s)

/-- The trimmed text of a setting; one that is missing, null or blank has none. -/
def text? (s : Setting) (entries : Entries) : Except ConfigFault (Option String) :=
  match s.value? entries with
  | none => .ok none
  | some .null => .ok none
  | some (.text raw) =>
    let text := Text.strip raw
    .ok (if text = "" then none else some text)
  | some _ => .error (.notText s)

/-- A file name below another directory. -/
def fileNameOr (s : Setting) (default : String) (entries : Entries) :
    Except ConfigFault String := do
  let name ← s.textOr default entries
  if (Path.ofText name).isAbsolute then .error (.notRelative s) else .ok name

end Setting

/-- The path of a text that is followed from a directory. An absolute path is left as it is. -/
def pathFrom (current : Location) (base : Path) (raw : String) : Path :=
  let path := Path.ofText raw
  if path.isAbsolute then path else (base.join path).resolve current

/-! ## What the sections say -/

/-- What stands for the path of the schema in a template. -/
def requiredPlaceholder : String := "<REQUIRED>"

/-- The schema text in a file. -/
def SchemaSource.ofFile (w : Workspace) (file : Path) : Except LoadFault SchemaSource :=
  match w.exists? file with
  | .error fault => .error (.file fault)
  | .ok false => .error (.config (.schemaMissing file))
  | .ok true =>
    match w.readText file with
    | .error fault => .error (.ofRead fault)
    | .ok text =>
      if Text.isBlank text then .error (.config .schemaBlank)
      else .ok { text, file := some file }

/-- The schema text that a value in the configuration is. -/
def SchemaSource.ofInline : Value → SchemaSource
  | .text text => { text, file := none }
  | value => { text := Yaml.write value, file := none }

/-- The schema text of the section `schema`. -/
def SchemaSource.load (w : Workspace) (base : Path) (entries : Entries) :
    Except LoadFault SchemaSource :=
  match Setting.schemaInline.given? entries, Setting.schemaPath.given? entries with
  | some _, some _ => .error (.config .inlineAndPath)
  | some value, none => .ok (ofInline value)
  | none, some (.text raw) =>
    if Text.strip raw = requiredPlaceholder then .error (.config .placeholder)
    else ofFile w (pathFrom w.current base raw)
  | none, some _ => .error (.config (.notText .schemaPath))
  | none, none => .error (.config .noSchema)

/-- The settings of the section `output`. -/
def OutputSettings.load (current : Location) (base : Path) (entries : Entries) :
    Except ConfigFault OutputSettings := do
  let directory ← Setting.outputDirectory.text? entries
  let usual : OutputSettings := { directory := (directory.map (pathFrom current base)).getD base }
  let rulesName ← Setting.outputRules.fileNameOr usual.rulesName entries
  let storageName ← Setting.outputStorage.fileNameOr usual.storageName entries
  let indexesName ← Setting.outputIndexes.fileNameOr usual.indexesName entries
  return { usual with rulesName, storageName, indexesName }

/-- The settings of the section `report`. -/
def ReportSettings.load (current : Location) (base : Path) (entries : Entries) :
    Except ConfigFault ReportSettings := do
  let name ← Setting.reportFormat.textOr ReportFormat.text.name entries
  match ReportFormat.ofName? (Text.lower name) with
  | none => .error .unknownFormat
  | some format =>
    let path ← Setting.reportPath.text? entries
    return { format, path := path.map (pathFrom current base) }

/-- Whether violations are failures, by the section `validation`. -/
def loadFailOnViolations (entries : Entries) : Except ConfigFault Bool :=
  match Setting.failOnViolations.value? entries with
  | none => .ok true
  | some (.bool b) => .ok b
  | some _ => .error (.notBoolean .failOnViolations)

/-! ## Configurations -/

/-- The entries of a configuration document; an empty document has none. -/
def configEntries : Value → Except ConfigFault Entries
  | .null => .ok []
  | .map entries => .ok entries
  | _ => .error .notMapping

/-- The document in a text. -/
def readConfigDocument (text : String) : Except LoadFault Value :=
  match Yaml.read text with
  | .ok value => .ok value
  | .error (.problem problem) => .error (.config (.document problem))
  | .error (.scalar fault) => .error (.scalar fault)

/-- The configuration that a document is. -/
def Configuration.ofEntries (w : Workspace) (path : Path) (document : Entries) :
    Except LoadFault Configuration := do
  let base := (path.resolve w.current).parent
  let schema ← SchemaSource.load w base (← (requiredSection document .schema).mapError .config)
  let output ← (do OutputSettings.load w.current base (← optionalSection document .output)
    : Except ConfigFault OutputSettings).mapError .config
  let report ← (do ReportSettings.load w.current base (← optionalSection document .report)
    : Except ConfigFault ReportSettings).mapError .config
  let failOnViolations ← (do loadFailOnViolations (← optionalSection document .validation)
    : Except ConfigFault Bool).mapError .config
  return { path, schema, output, report, failOnViolations }

/-- The configuration in a file. -/
def Configuration.load (w : Workspace) (path : Path) : Except LoadFault Configuration := do
  if !(← (w.exists? path).mapError .file) then
    .error (.config (.missing path))
  else
    let text ← (w.readText path).mapError .ofRead
    let entries ← (configEntries (← readConfigDocument text)).mapError .config
    Configuration.ofEntries w path entries

/-- The schema of a source. -/
def SchemaSource.schema (s : SchemaSource) : Except LoadFault Schema :=
  (Schema.ofText s.text).mapError .ofSchema

end DocSchema
