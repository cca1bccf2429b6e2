import DocSchema.Schema.Load
import DocSchema.Yaml.Reader

/-!
# Schemas as text

A schema is written in YAML, or in JSON, most of which is YAML.

## Main definitions

* `SchemaError`: why a text is no schema
* `Schema.ofText`: the schema of a text
-/

namespace DocSchema

/-- Why a text is no schema. -/
inductive SchemaError
  /-- The text has no document value. -/
  | document (fault : Yaml.Fault)
  /-- The document value is no schema. -/
  | content (fault : SchemaFault)
  deriving DecidableEq, Repr

/-- The wording of an error. A scalar that denotes nothing speaks for itself. -/
def SchemaError.message : SchemaError → String
  | document (.problem p) => "Invalid schema document: " ++ p.message
  | document (.scalar f) => f.message
  | content fault => fault.message

/-- The schema of a text. -/
def Schema.ofText (text : String) : Except SchemaError Schema := do
  let value ← (Yaml.read text).mapError .document
  (Schema.ofValue value).mapError .content

end DocSchema
