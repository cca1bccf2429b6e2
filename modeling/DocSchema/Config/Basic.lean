import DocSchema.Report.Format
import DocSchema.Workspace.Path

/-!
# Configurations

A configuration says where the schema is, where the compiled files and the report go, and whether
a schema with violations is compiled.

## Main definitions

* `Configuration`, made up of `SchemaSource`, `OutputSettings` and `ReportSettings`
* `Section`, `Setting`: the parts of a configuration document by their names
-/

namespace DocSchema

/-- The text of a schema. -/
structure SchemaSource where
  text : String
  /-- The file that the text is from, unless it stands in the configuration itself. -/
  file : Option Path
  deriving DecidableEq, Repr

/-- Where the compiled files go. -/
structure OutputSettings where
  directory : Path
  rulesName : String := "firestore.rules"
  storageName : String := "storage.rules"
  indexesName : String := "firestore.indexes.json"
  deriving DecidableEq, Repr

namespace OutputSettings

/-- The path of the access rules. -/
def rulesPath (o : OutputSettings) : Path := o.directory.join (.ofText o.rulesName)

/-- The path of the rules of the file storage. -/
def storagePath (o : OutputSettings) : Path := o.directory.join (.ofText o.storageName)

/-- The path of the index manifest. -/
def indexesPath (o : OutputSettings) : Path := o.directory.join (.ofText o.indexesName)

end OutputSettings

/-- How a report is given, and the file that it goes to. -/
structure ReportSettings where
  format : ReportFormat
  path : Option Path
  deriving DecidableEq, Repr

/-- A configuration. -/
structure Configuration where
  /-- The file of the configuration. -/
  path : Path
  schema : SchemaSource
  output : OutputSettings
  report : ReportSettings
  /-- Whether a schema with violations is not compiled. -/
  failOnViolations : Bool
  deriving DecidableEq, Repr

/-! ## Names in a document -/

/-- The sections of a configuration document. -/
inductive Section
  | schema
  | output
  | report
  | validation
  deriving DecidableEq, Repr

/-- The name of a section. -/
def Section.name : Section → String
  | schema => "schema"
  | output => "output"
  | report => "report"
  | validation => "validation"

/-- The settings of a configuration document. -/
inductive Setting
  | schemaInline
  | schemaPath
  | outputDirectory
  | outputRules
  | outputStorage
  | outputIndexes
  | reportFormat
  | reportPath
  | failOnViolations
  deriving DecidableEq, Repr

namespace Setting

/-- The section of a setting. -/
def home : Setting → Section
  | schemaInline | schemaPath => .schema
  | outputDirectory | outputRules | outputStorage | outputIndexes => .output
  | reportFormat | reportPath => .report
  | failOnViolations => .validation

/-- The key of a setting in its section. -/
def key : Setting → String
  | schemaInline => "inline"
  | schemaPath => "path"
  | outputDirectory => "directory"
  | outputRules => "firestore_rules"
  | outputStorage => "storage_rules"
  | outputIndexes => "indexes"
  | reportFormat => "format"
  | reportPath => "path"
  | failOnViolations => "fail_on_violations"

/-- The full name of a setting. -/
def text (s : Setting) : String := s.home.name ++ "." ++ s.key

end Setting

end DocSchema
