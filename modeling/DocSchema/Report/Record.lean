import DocSchema.Report.Basic

/-!
# The report as a JSON record

## Main definitions

* `Report.record`: the record of a report
* `Report.recordText`: its text on several lines
-/

namespace DocSchema

/-- A natural number as JSON. -/
def jsonNat (n : Nat) : Json := .int n

/-- A list of texts as JSON. -/
def jsonTexts (texts : List String) : Json := .list (texts.map .text)

/-- A text that may be missing as JSON. -/
def jsonOptionalText : Option String → Json
  | some text => .text text
  | none => .null

/-- The totals in the record. -/
def Overview.record (o : Overview) : Json :=
  .object [("collections", jsonNat o.collections), ("totalFields", jsonNat o.totalFields),
    ("relationships", jsonNat o.relationships), ("indexes", jsonNat o.indexes),
    ("roles", jsonNat o.roles)]

/-- A field in the record. -/
def Field.record (f : Field) : Json :=
  .object [("name", .text f.name), ("type", .text f.type), ("required", .bool f.required),
    ("default", f.default)]

/-- A relationship in the record. -/
def RelationshipSummary.record (r : RelationshipSummary) : Json :=
  .object [("type", .text r.type), ("targetEntity", .text r.targetEntity),
    ("viaField", .text r.viaField), ("arrow", .text r.arrow)]

/-- An entity in the record. -/
def EntityBreakdown.record (e : EntityBreakdown) : Json :=
  .object [("name", .text e.collection), ("model", .text e.model),
    ("fieldCount", jsonNat e.fields.length), ("fields", .list (e.fields.map Field.record)),
    ("relationships", .list (e.relationships.map RelationshipSummary.record)),
    ("indexes", .list (e.indexSpecs.map jsonTexts))]

/-- A role in the record. -/
def Role.record (r : Role) : Json :=
  .object [("role", .text r.role), ("permissions", jsonTexts r.permissions),
    ("description", jsonOptionalText r.description)]

/-- The rights in a collection in the record. -/
def CollectionAccess.record (a : CollectionAccess) : Json :=
  .object [("collection", .text a.collection), ("policy", .text a.policy.text),
    ("ownerField", jsonOptionalText a.policy.ownerField), ("read", .text a.grants.read.text),
    ("create", .text a.grants.create.text), ("update", .text a.grants.update.text),
    ("delete", .text a.grants.delete.text)]

/-- A capacity estimate in the record. -/
def CapacityRow.record (r : CapacityRow) : Json :=
  .object [("collection", .text r.collection),
    ("estimatedDocBytes", jsonNat r.estimate.docBytes),
    ("freeTierDocCount", (r.estimate.freeTierDocs.map jsonNat).getD .null),
    ("sizeClass", .text r.estimate.sizeClass.text),
    ("notes", .text r.estimate.sizeClass.note)]

/-- The record of a report. -/
def Report.record (r : Report) : Json :=
  .object [("overview", r.overview.record),
    ("collections", .list (r.entities.map EntityBreakdown.record)),
    ("security", .object [("roles", .list (r.roles.map Role.record)),
      ("rules", .list (r.access.map CollectionAccess.record))]),
    ("capacity", .list (r.capacity.map CapacityRow.record))]

/-- The text of the record. -/
def Report.recordText (r : Report) : String := r.record.pretty

end DocSchema
