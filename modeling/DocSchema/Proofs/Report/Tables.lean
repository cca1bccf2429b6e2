import DocSchema.Proofs.Json.Sorted
import DocSchema.Proofs.Report.Alignment
import DocSchema.Report.Workbook

/-!
# The workbook shows the record

The record of a report is nested: an entity holds its fields, relationships and index
specifications. The workbook is flat, with one table for each of these. The two are written by
passes over the report that do not know of each other, and the totals on the first sheet are counted
by a third one.

This module makes the tables from the record alone, by looking up members under their keys, and
shows that they are the tables of the workbook. What a cell shows of a value is the value itself. A
list or an object has no cell of its own; it is shown as its JSON text with sorted keys.

## Main definitions

* `Json.Record.tables`: the tables that a record tells
* `Workbook.tables`: the rows of a workbook below the headers

## Main results

* `Report.tables_workbook`: the tables of the workbook are those that the record tells
* `Schema.length_table`: they are as long as the totals of the record say
* `workbook_shows_record`: both, and what the cells of lists and objects hold
-/

namespace DocSchema

/-! ## Tables told by a record -/

namespace Json

/-- The value of a member, or null. -/
def member (key : String) (j : Json) : Json := (j.member? key).getD .null

/-- The items of a list. -/
def items : Json → List Json
  | list items => items
  | _ => []

/-- The number that an integer is. -/
def int? : Json → Option Int
  | int n => some n
  | _ => none

/-- The text that a text is. -/
def text? : Json → Option String
  | text s => some s
  | _ => none

/-- The items of a list of texts in one cell. -/
def joinedCell (j : Json) : Cell := .text (", ".intercalate (j.items.filterMap text?))

/-- The cells of some members. -/
def memberCells (keys : List String) (j : Json) : List Cell :=
  keys.map fun key => Cell.ofJson (j.member key)

namespace Record

/-- The totals. -/
def totalRows (overview : Json) : List (List Cell) :=
  [[.text "collections", Cell.ofJson (overview.member "collections")],
   [.text "total_fields", Cell.ofJson (overview.member "totalFields")],
   [.text "relationships", Cell.ofJson (overview.member "relationships")],
   [.text "indexes", Cell.ofJson (overview.member "indexes")],
   [.text "roles", Cell.ofJson (overview.member "roles")]]

/-- A row for each field of a collection. -/
def fieldRows (collection : Json) : List (List Cell) :=
  (collection.member "fields").items.map fun field =>
    collection.memberCells ["name", "model"]
      ++ field.memberCells ["name", "type", "required", "default"]

/-- A row for each relationship of a collection. -/
def relationshipRows (collection : Json) : List (List Cell) :=
  (collection.member "relationships").items.map fun relationship =>
    collection.memberCells ["model"]
      ++ relationship.memberCells ["type", "arrow", "targetEntity", "viaField"]

/-- A row for each index specification of a collection, with its number in the collection. -/
def indexRows (collection : Json) : List (List Cell) :=
  (collection.member "indexes").items.mapIdx fun position spec =>
    collection.memberCells ["name"] ++ [.int (position + 1), spec.joinedCell]

/-- The row of a role. -/
def roleRow (role : Json) : List Cell :=
  role.memberCells ["role"] ++ [(role.member "permissions").joinedCell]
    ++ role.memberCells ["description"]

/-- The row of the rights in a collection. -/
def rightsRow (rights : Json) : List Cell :=
  rights.memberCells ["collection", "policy", "ownerField", "read", "create", "update", "delete"]

/-- The row of a capacity estimate, with both figures as numbers and as texts. -/
def capacityRow (estimate : Json) : List Cell :=
  estimate.memberCells ["collection", "estimatedDocBytes"]
    ++ [.text (docSizeText ((estimate.member "estimatedDocBytes").int?.getD 0))]
    ++ estimate.memberCells ["freeTierDocCount"]
    ++ [.text (freeTierText (estimate.member "freeTierDocCount").int?)]
    ++ estimate.memberCells ["notes"]

/-- The tables that a record tells, each with its title. -/
def tables (record : Json) : List (String × List (List Cell)) :=
  let collections := (record.member "collections").items
  let security := record.member "security"
  [("Overview", totalRows (record.member "overview")),
   ("Entities", collections.flatMap fieldRows),
   ("Relationships", collections.flatMap relationshipRows),
   ("Roles", (security.member "roles").items.map roleRow),
   ("Security", (security.member "rules").items.map rightsRow),
   ("Indexes", collections.flatMap indexRows),
   ("Capacity", (record.member "capacity").items.map capacityRow)]

end Record

end Json

/-! ## Tables of a workbook -/

/-- The rows of a sheet below its header. -/
def Sheet.dataRows (s : Sheet) : List (List Cell) :=
  match s.headerStyle with
  | .plain => s.rows
  | .headline => s.rows.tail

@[simp] theorem Sheet.dataRows_table (title : String) (header : List String)
    (rows : List (List Cell)) : (Sheet.table title header rows).dataRows = rows := by
  rfl

/-- The tables of a workbook, each with its title. -/
def Workbook.tables (w : Workbook) : List (String × List (List Cell)) :=
  w.sheets.map fun sheet => (sheet.title, sheet.dataRows)

open Json.Record

theorem Cell.ofJson_jsonOptionalText (text : Option String) :
    ofJson (jsonOptionalText text) = optionalText text := by
  cases text with
  | none => rfl
  | some text => rfl

theorem Json.joinedCell_jsonTexts (texts : List String) :
    (jsonTexts texts).joinedCell = .text (", ".intercalate texts) := by
  have htexts : (texts.map Json.text).filterMap Json.text? = texts := by
    rw [List.filterMap_map]
    exact List.filterMap_some
  rw [joinedCell, jsonTexts, items, htexts]

theorem Overview.rows_eq (o : Overview) : o.sheet.dataRows = totalRows o.record := by
  rfl

theorem EntityBreakdown.fieldCells_eq (e : EntityBreakdown) : e.fieldCells = fieldRows e.record := by
  have hfields : e.record.member "fields" = .list (e.fields.map Field.record) := by rfl
  rw [fieldRows, hfields, Json.items, List.map_map]
  rfl

theorem EntityBreakdown.relationshipCells_eq (e : EntityBreakdown) :
    e.relationshipCells = relationshipRows e.record := by
  have hrelationships : e.record.member "relationships" =
      .list (e.relationships.map RelationshipSummary.record) := by rfl
  rw [relationshipRows, hrelationships, Json.items, List.map_map]
  rfl

theorem EntityBreakdown.indexCells_eq (e : EntityBreakdown) : e.indexCells = indexRows e.record := by
  have hindexes : e.record.member "indexes" = .list (e.indexSpecs.map jsonTexts) := by rfl
  rw [indexRows, hindexes, Json.items]
  refine List.ext_getElem (by simp [indexCells]) fun i hi hi' => ?_
  simp only [indexCells, List.getElem_map, List.getElem_zip, List.getElem_range', List.getElem_mapIdx,
    Json.joinedCell_jsonTexts]
  have hposition : Cell.nat (1 + 1 * i) = .int (i + 1) := by
    rw [Cell.nat, Nat.one_mul, Nat.add_comm, Int.natCast_add, Int.natCast_one]
  rw [hposition]
  rfl

theorem Role.cells_eq (r : Role) : r.cells = roleRow r.record := by
  have hpermissions : r.record.member "permissions" = jsonTexts r.permissions := by rfl
  rw [roleRow, hpermissions, Json.joinedCell_jsonTexts, cells, ← Cell.ofJson_jsonOptionalText]
  rfl

theorem CollectionAccess.cells_eq (a : CollectionAccess) : a.cells = rightsRow a.record := by
  rw [cells, ← Cell.ofJson_jsonOptionalText]
  rfl

theorem CapacityRow.cells_eq (c : CapacityRow) : c.cells = capacityRow c.record := by
  obtain ⟨collection, docBytes, docs, size⟩ := c
  cases docs with
  | none => rfl
  | some docs => rfl

/-- The tables of the workbook of a report are those that its record tells. -/
theorem Report.tables_workbook (r : Report) : r.workbook.tables = tables r.record := by
  have hcollections : (r.record.member "collections").items =
      r.entities.map EntityBreakdown.record := by rfl
  have hroles : ((r.record.member "security").member "roles").items = r.roles.map Role.record := by
    rfl
  have hrules : ((r.record.member "security").member "rules").items =
      r.access.map CollectionAccess.record := by rfl
  have hcapacity : (r.record.member "capacity").items = r.capacity.map CapacityRow.record := by rfl
  have hoverview : r.record.member "overview" = r.overview.record := by rfl
  simp only [tables, hcollections, hroles, hrules, hcapacity, hoverview, List.flatMap_map,
    List.map_map, Function.comp_def, ← EntityBreakdown.fieldCells_eq,
    ← EntityBreakdown.relationshipCells_eq, ← EntityBreakdown.indexCells_eq, ← Role.cells_eq,
    ← CollectionAccess.cells_eq, ← CapacityRow.cells_eq, ← Overview.rows_eq]
  rfl

/-! ## Totals -/

/-- The titles of tables with the totals that tell their lengths. -/
def countedTables : List (String × String) :=
  [("Entities", "totalFields"), ("Relationships", "relationships"), ("Indexes", "indexes"),
    ("Roles", "roles"), ("Security", "collections"), ("Capacity", "collections")]

theorem EntityBreakdown.length_indexCells (e : EntityBreakdown) :
    e.indexCells.length = e.indexSpecs.length := by
  simp [indexCells]

/-- Rows that are made for each entity are counted by what they are made of. -/
theorem Schema.length_entityRows {α : Type} {rows : EntityBreakdown → List (List Cell)}
    {parts : Entity → List α} (h : ∀ e : Entity, (rows e.breakdown).length = (parts e).length)
    (s : Schema) :
    (s.report.entities.flatMap rows).length = (s.entities.flatMap parts).length := by
  simp only [report, List.length_flatMap, List.map_map, Function.comp_def, h]

theorem Schema.length_table (s : Schema) : ∀ t ∈ countedTables,
    ∃ rows, Assoc.find? t.1 s.report.workbook.tables = some rows ∧
      s.report.record.at? ["overview", t.2] = some (jsonNat rows.length) := by
  have hfields : (s.report.entities.flatMap EntityBreakdown.fieldCells).length =
      s.overview.totalFields := length_entityRows (fun _ => List.length_map _) s
  have hrelationships : (s.report.entities.flatMap EntityBreakdown.relationshipCells).length =
      s.overview.relationships :=
    length_entityRows (fun _ => (List.length_map _).trans (List.length_map _)) s
  have hindexes : (s.report.entities.flatMap EntityBreakdown.indexCells).length =
      s.overview.indexes := length_entityRows (fun e => e.breakdown.length_indexCells) s
  have hroles : (s.report.roles.map Role.cells).length = s.overview.roles := List.length_map _
  have haccess : (s.report.access.map CollectionAccess.cells).length = s.overview.collections :=
    (List.length_map _).trans (List.length_map _)
  have hcapacity : (s.report.capacity.map CapacityRow.cells).length = s.overview.collections :=
    (List.length_map _).trans (List.length_map _)
  intro t ht
  simp only [countedTables, List.mem_cons, List.not_mem_nil, or_false] at ht
  rcases ht with rfl | rfl | rfl | rfl | rfl | rfl
  · exact ⟨_, rfl, by rw [Sheet.dataRows_table, hfields]; rfl⟩
  · exact ⟨_, rfl, by rw [Sheet.dataRows_table, hrelationships]; rfl⟩
  · exact ⟨_, rfl, by rw [Sheet.dataRows_table, hindexes]; rfl⟩
  · exact ⟨_, rfl, by rw [Sheet.dataRows_table, hroles]; rfl⟩
  · exact ⟨_, rfl, by rw [Sheet.dataRows_table, haccess]; rfl⟩
  · exact ⟨_, rfl, by rw [Sheet.dataRows_table, hcapacity]; rfl⟩

/-! ## Lists and objects in cells -/

/-- Lists and objects, which a cell shows as text. -/
inductive Json.HasParts : Json → Prop
  | list (items : List Json) : HasParts (.list items)
  | object (members : List (String × Json)) : HasParts (.object members)

/-- The text in the cell of a list or an object is that of its rearrangement by keys. -/
theorem Cell.ofJson_hasParts {j : Json} (h : j.HasParts) :
    ∃ sorted : Json, sorted.KeySorted ∧ j.Rearranged sorted ∧ ofJson j = .text sorted.compact := by
  rcases h with items | members
  · exact ⟨_, Json.keySorted_sorted _, Json.rearranged_sorted _, rfl⟩
  · exact ⟨_, Json.keySorted_sorted _, Json.rearranged_sorted _, rfl⟩

/-- The workbook of a schema tells what its record tells: the tables are those of the record, they
have as many rows as the totals of the record say, and a default with parts is shown in the order of
its keys. -/
theorem workbook_shows_record (s : Schema) :
    s.report.workbook.tables = tables s.report.record ∧
      (∀ t ∈ countedTables, ∃ rows, Assoc.find? t.1 s.report.workbook.tables = some rows ∧
        s.report.record.at? ["overview", t.2] = some (jsonNat rows.length)) ∧
      ∀ e ∈ s.entities, ∀ f ∈ e.fields, f.default.HasParts →
        ∃ sorted : Json, sorted.KeySorted ∧ f.default.Rearranged sorted ∧
          Cell.ofJson f.default = .text sorted.compact :=
  ⟨s.report.tables_workbook, s.length_table, fun _ _ _ _ h => Cell.ofJson_hasParts h⟩

/-- The numbers of index specifications start anew in each collection. -/
example :
    Assoc.find? "Indexes" (Schema.report
      { entities :=
          [{ name := "Note", collectionName := "notes", indexSpecs := [["a", "b"], ["c"]] },
           { name := "Task", collectionName := "tasks", indexSpecs := [["d"]] }]
        roles := [] }).workbook.tables =
      some [[.text "notes", .int 1, .text "a, b"], [.text "notes", .int 2, .text "c"],
        [.text "tasks", .int 1, .text "d"]] := by
  rfl

end DocSchema
