import DocSchema.Config.Basic
import DocSchema.Schema.Document
import DocSchema.Workspace.Basic

/-!
# Faults of a configuration

## Main definitions

* `ConfigFault`: why a document is no configuration
* `LoadFault`: why a configuration, or the schema that it names, cannot be had
-/

namespace DocSchema

/-- Why there is no configuration. -/
inductive ConfigFault
  | missing (path : Path)
  /-- The file is no document. -/
  | document (problem : Yaml.Problem)
  | notMapping
  | sectionRequired (part : Section)
  | sectionNotMapping (part : Section)
  /-- The schema is given twice. -/
  | inlineAndPath
  /-- The schema is not given. -/
  | noSchema
  | notText (setting : Setting)
  | blank (setting : Setting)
  | notRelative (setting : Setting)
  | notBoolean (setting : Setting)
  | unknownFormat
  /-- The path of the schema has not been filled in. -/
  | placeholder
  | schemaMissing (path : Path)
  | schemaBlank
  deriving DecidableEq, Repr

/-- The wording of a fault. -/
def ConfigFault.message : ConfigFault → String
  | missing path => "Configuration file not found: " ++ path.text
  | document problem => "Failed to parse configuration file: " ++ problem.message
  | notMapping => "Configuration root must be a mapping."
  | sectionRequired part => "Configuration section '" ++ part.name ++ "' is required."
  | sectionNotMapping part => "Configuration section '" ++ part.name ++ "' must be a mapping."
  | inlineAndPath => "Schema definition must not set both inline and path."
  | noSchema => "Schema definition requires either inline or path."
  | notText setting => setting.text ++ " must be a string."
  | blank setting => setting.text ++ " must not be empty."
  | notRelative setting => setting.text ++ " must be relative to output.directory."
  | notBoolean setting => setting.text ++ " must be a boolean."
  | unknownFormat =>
    Setting.reportFormat.text ++ " must be one of: "
      ++ ", ".intercalate (ReportFormat.all.map ReportFormat.name) ++ "."
  | placeholder => Setting.schemaPath.text ++ " still contains the <REQUIRED> placeholder."
  | schemaMissing path => "Schema file not found: " ++ path.text
  | schemaBlank => "Schema text cannot be empty."

/-- Why a configuration or its schema cannot be loaded. -/
inductive LoadFault
  | config (fault : ConfigFault)
  | schema (fault : SchemaFault)
  /-- The text of the schema is no document. -/
  | document (problem : Yaml.Problem)
  | file (fault : FileFault)
  /-- A file holds bytes that are no text. -/
  | undecodable
  /-- A scalar of a document does not denote what it claims to. -/
  | scalar (fault : Yaml.ScalarFault)
  deriving DecidableEq, Repr

namespace LoadFault

/-- Reading a text failed. -/
def ofRead : Workspace.ReadFault → LoadFault
  | .file fault => file fault
  | .undecodable => undecodable

/-- A text is no schema. -/
def ofSchema : SchemaError → LoadFault
  | .document (.problem problem) => document problem
  | .document (.scalar fault) => scalar fault
  | .content fault => schema fault

/-- The wording of a fault. -/
def message : LoadFault → String
  | config fault => fault.message
  | schema fault => fault.message
  | document problem => (SchemaError.document (.problem problem)).message
  | file fault => fault.message
  | undecodable => "file is not valid UTF-8"
  | scalar fault => fault.message

/-- Whether a fault is one that runs report; the other ones end a run at once. -/
def isReported : LoadFault → Bool
  | undecodable => false
  | scalar _ => false
  | _ => true

end LoadFault

end DocSchema
