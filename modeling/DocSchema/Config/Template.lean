import DocSchema.Text.Lines
import DocSchema.Workspace.Edit

/-!
# Configuration templates

A template is a configuration with comments whose schema has yet to be filled in. It is only
written where there is no file.

## Main definitions

* `configTemplate`
* `writeTemplate`
-/

namespace DocSchema

/-- The lines of a template. -/
def configTemplateLines : List String :=
  ["# Compiler configuration template for schema-compiler.",
   "# Replace every <REQUIRED> placeholder before running validate, compile or report.",
   "# Uncomment <OPTIONAL> entries only when the defaults do not fit.",
   "",
   "schema:",
   "  # Provide either a schema file path or inline schema YAML/JSON text.",
   "  path: \"<REQUIRED>\"",
   "  # inline: \"<OPTIONAL>\"",
   "",
   "output:",
   "  # Relative paths resolve against this file's directory.",
   "  # directory: \"<OPTIONAL>\"",
   "  firestore_rules: \"firestore.rules\"",
   "  storage_rules: \"storage.rules\"",
   "  indexes: \"firestore.indexes.json\"",
   "",
   "report:",
   "  # One of: structured, text, xlsx.",
   "  format: \"text\"",
   "  # path: \"<OPTIONAL>\"",
   "",
   "validation:",
   "  # Refuse to write artifacts while the schema has violations.",
   "  fail_on_violations: true"]

/-- A configuration that has yet to be filled in. -/
def configTemplate : String := Text.unlines configTemplateLines

/-- The usual name of a configuration file. -/
def usualConfigName : String := "schema-compiler.yaml"

/-- Why no template is written. -/
inductive TemplateFault
  /-- There is something at the end of the path. -/
  | taken (location : Path)
  | file (fault : FileFault)
  deriving DecidableEq, Repr

/-- The wording of a fault. -/
def TemplateFault.message : TemplateFault → String
  | taken location => "Configuration file already exists: " ++ location.text
  | file fault => fault.message

/-- Writes a template at the end of a path and tells where it is. -/
def writeTemplate (p : Path) : EStateM TemplateFault Workspace Path := do
  let w ← get
  match w.exists? p with
  | .error fault => throw (.file fault)
  | .ok true => throw (.taken (p.resolve w.current))
  | .ok false =>
    (Edit.writeFile p (.text configTemplate)).adaptExcept .file
    return p.resolve w.current

end DocSchema
