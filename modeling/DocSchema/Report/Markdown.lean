import DocSchema.Report.Basic
import DocSchema.Report.Table

/-!
# The report as a Markdown document

The document has a title and six pages, with a rule before each page: the totals, the entities
with their fields, the relationships, the rights, the indexes and the capacity estimates. Every
page ends with an empty line.

## Main definitions

* `Report.pages`: the lines of each page
* `Report.markdown`: the document
-/

namespace DocSchema

/-- The text of lines with a line feed between each two. -/
def joinLines (lines : List String) : String := "\n".intercalate lines

/-- Numbers the items of a list from one on. -/
def numbered {α : Type} (items : List α) : List (Nat × α) :=
  (List.range' 1 items.length).zip items

/-- The default of a field in a table: a dash for none, text as it is, and any other value as
JSON with sorted keys. -/
def defaultText : Json → String
  | .null => "-"
  | .text s => if s = "" then "-" else s
  | value => value.sorted.compact

/-- The page of totals. -/
def Overview.page (o : Overview) : List String :=
  ["## Overview", "",
   "- **Collections:** " ++ toString o.collections,
   "- **Total Fields:** " ++ toString o.totalFields,
   "- **Relationships:** " ++ toString o.relationships,
   "- **Indexes:** " ++ toString o.indexes,
   "- **User Roles:** " ++ toString o.roles,
   ""]

/-- The row of a field. -/
def Field.row (f : Field) : List String :=
  [f.name, f.type, if f.required then "✓" else "", defaultText f.default]

/-- The part of an entity on the page of entities. -/
def EntityBreakdown.chapter (position : Nat) (e : EntityBreakdown) : List String :=
  ["### " ++ toString position ++ ". " ++ e.collection ++ "/", "", "**Model:** " ++ e.model, ""]
    ++ (if e.fields.isEmpty then ["_No fields defined_"]
      else Table.lines ["Field", "Type", "Required", "Default"] (e.fields.map Field.row))
    ++ [""]

/-- The page of entities. -/
def Report.entitiesPage (r : Report) : List String :=
  ["## Collections & Fields", ""]
    ++ (if r.entities.isEmpty then ["_No data models defined yet._", ""] else [])
    ++ (numbered r.entities).flatMap fun (position, e) => e.chapter position

/-- The line of a relationship. -/
def RelationshipSummary.line (r : RelationshipSummary) : String :=
  "- `" ++ r.arrow ++ "` " ++ r.type ++ " with `" ++ r.targetEntity ++ "` via `" ++ r.viaField
    ++ "`"

/-- The page of relationships. -/
def Report.relationshipsPage (r : Report) : List String :=
  let related := r.entities.filter fun e => !e.relationships.isEmpty
  ["## Relationships", ""]
    ++ (if related.isEmpty then ["_No relationships defined_", ""] else [])
    ++ related.flatMap fun e =>
      ["### " ++ e.model, ""] ++ e.relationships.map RelationshipSummary.line ++ [""]

/-- The line of a role. -/
def Role.line (r : Role) : String :=
  let permissions := ", ".intercalate r.permissions
  "- **" ++ r.role ++ "**: " ++ (if permissions = "" then "standard permissions" else permissions)

/-- The row of the rights in a collection. -/
def CollectionAccess.row (a : CollectionAccess) : List String :=
  [a.collection, a.policy.text, a.grants.read.text, a.grants.create.text, a.grants.update.text,
   a.grants.delete.text]

/-- The page of rights. -/
def Report.securityPage (r : Report) : List String :=
  ["## Security Rules", ""]
    ++ (if r.roles.isEmpty then ["_No user roles defined._"]
      else ["**User Roles:**", ""] ++ r.roles.map Role.line)
    ++ [""]
    ++ (if r.access.isEmpty then []
      else Table.lines ["Collection", "Policy", "Read", "Create", "Update", "Delete"]
        (r.access.map CollectionAccess.row) ++ [""])

/-- The page of indexes. -/
def Report.indexesPage (r : Report) : List String :=
  let indexed := r.entities.filter fun e => !e.indexSpecs.isEmpty
  ["## Indexes", ""]
    ++ (if indexed.isEmpty then ["_No composite indexes defined (auto-indexes will be used)_", ""]
      else [])
    ++ indexed.flatMap fun e =>
      ["### " ++ e.collection, ""]
        ++ (numbered e.indexSpecs).map (fun (position, spec) =>
          toString position ++ ". Composite: [" ++ ", ".intercalate spec ++ "]")
        ++ [""]

/-- The note below the capacity estimates. -/
def freeTierNote : String := "Firebase Free Tier: 1GB storage, 50K reads/day, 20K writes/day"

/-- The row of a capacity estimate. -/
def CapacityRow.row (c : CapacityRow) : List String :=
  [c.collection, docSizeText c.estimate.docBytes,
   freeTierText (c.estimate.freeTierDocs.map fun docs => (docs : Int)),
   c.estimate.sizeClass.note]

/-- The page of capacity estimates. -/
def Report.capacityPage (r : Report) : List String :=
  ["## Storage Estimates", ""]
    ++ (if r.capacity.isEmpty then []
      else Table.lines ["Collection", "Est. Doc Size", "Free Tier", "Notes"]
        (r.capacity.map CapacityRow.row) ++ [""])
    ++ [freeTierNote, ""]

/-- The lines of every page. -/
def Report.pages (r : Report) : List (List String) :=
  [r.overview.page, r.entitiesPage, r.relationshipsPage, r.securityPage, r.indexesPage,
   r.capacityPage]

/-- The document. -/
def Report.markdown (r : Report) : String :=
  "# Database Structure Preview\n"
    ++ String.join (r.pages.map fun page => "\n---\n\n" ++ joinLines page)

end DocSchema
