import DocSchema.Report.Basic
import DocSchema.Text.Lines

/-!
# The report as a workbook

A workbook has seven sheets: the totals, and a table each for the fields, the relationships, the
roles, the rights, the indexes and the capacity estimates.

## Main definitions

* `Cell`, `Sheet`, `Workbook`
* `Report.workbook`: the workbook of a report
* `Workbook.fault?`: why a workbook has no file
* `Cell.stored`: what is left of a cell in a workbook file

## Implementation notes

A workbook file holds texts of at most 32767 characters without control characters, and numbers of
sixteen significant digits. An empty text and a number that is not finite leave the cell empty. The
file is XML, in which every end of a line is a line feed.
-/

namespace DocSchema

open Number (Binary64 Decimal)

/-- The content of a cell. -/
inductive Cell
  | empty
  | bool (b : Bool)
  | int (n : Int)
  | float (x : Binary64)
  | text (s : String)
  deriving DecidableEq, Repr

/-- How the first row of a sheet looks. -/
inductive HeaderStyle
  | plain
  | headline
  deriving DecidableEq, Repr

/-- The written form of a style. -/
def HeaderStyle.text : HeaderStyle → String
  | plain => "Normal"
  | headline => "Headline 1"

/-- A sheet of a workbook. -/
structure Sheet where
  title : String
  /-- The widths of the first columns. -/
  widths : List Nat
  headerStyle : HeaderStyle
  rows : List (List Cell)
  deriving DecidableEq, Repr

/-- A workbook. -/
structure Workbook where
  sheets : List Sheet
  deriving DecidableEq, Repr

/-! ## Tables of a report -/

/-- A natural number in a cell. -/
def Cell.nat (n : Nat) : Cell := .int n

/-- A text that may be missing in a cell. -/
def Cell.optionalText : Option String → Cell
  | some s => .text s
  | none => .empty

/-- A default in a cell: lists and objects as JSON with sorted keys. -/
def Cell.ofJson : Json → Cell
  | .null => .empty
  | .bool b => .bool b
  | .int n => .int n
  | .float x => .float x
  | .text s => .text s
  | .list items => .text (Json.list items).sorted.compact
  | .object members => .text (Json.object members).sorted.compact

/-- The width of a column with a given header. -/
def columnWidth (header : String) : Nat := max 12 (min (header.length + 6) 40)

/-- A sheet with a header row. -/
def Sheet.table (title : String) (header : List String) (rows : List (List Cell)) : Sheet where
  title := title
  widths := header.map columnWidth
  headerStyle := .headline
  rows := header.map Cell.text :: rows

/-- The sheet of totals. -/
def Overview.sheet (o : Overview) : Sheet where
  title := "Overview"
  widths := [16]
  headerStyle := .plain
  rows :=
    [[.text "collections", .nat o.collections],
     [.text "total_fields", .nat o.totalFields],
     [.text "relationships", .nat o.relationships],
     [.text "indexes", .nat o.indexes],
     [.text "roles", .nat o.roles]]

/-- The rows of the fields of an entity. -/
def EntityBreakdown.fieldCells (e : EntityBreakdown) : List (List Cell) :=
  e.fields.map fun f =>
    [.text e.collection, .text e.model, .text f.name, .text f.type, .bool f.required,
     .ofJson f.default]

/-- The rows of the relationships of an entity. -/
def EntityBreakdown.relationshipCells (e : EntityBreakdown) : List (List Cell) :=
  e.relationships.map fun r =>
    [.text e.model, .text r.type, .text r.arrow, .text r.targetEntity, .text r.viaField]

/-- The rows of the index specifications of an entity. -/
def EntityBreakdown.indexCells (e : EntityBreakdown) : List (List Cell) :=
  ((List.range' 1 e.indexSpecs.length).zip e.indexSpecs).map fun (position, spec) =>
    [.text e.collection, .nat position, .text (", ".intercalate spec)]

/-- The row of a role. -/
def Role.cells (r : Role) : List Cell :=
  [.text r.role, .text (", ".intercalate r.permissions), .optionalText r.description]

/-- The row of the rights in a collection. -/
def CollectionAccess.cells (a : CollectionAccess) : List Cell :=
  [.text a.collection, .text a.policy.text, .optionalText a.policy.ownerField,
   .text a.grants.read.text, .text a.grants.create.text, .text a.grants.update.text,
   .text a.grants.delete.text]

/-- The row of a capacity estimate. -/
def CapacityRow.cells (c : CapacityRow) : List Cell :=
  [.text c.collection, .nat c.estimate.docBytes, .text (docSizeText c.estimate.docBytes),
   (c.estimate.freeTierDocs.map Cell.nat).getD .empty,
   .text (freeTierText (c.estimate.freeTierDocs.map fun docs => (docs : Int))),
   .text c.estimate.sizeClass.note]

/-- The workbook of a report. -/
def Report.workbook (r : Report) : Workbook where
  sheets :=
    [r.overview.sheet,
     .table "Entities" ["Collection", "Model", "Field", "Type", "Required", "Default"]
       (r.entities.flatMap EntityBreakdown.fieldCells),
     .table "Relationships" ["Model", "Type", "Arrow", "Target", "Via Field"]
       (r.entities.flatMap EntityBreakdown.relationshipCells),
     .table "Roles" ["Role", "Permissions", "Description"] (r.roles.map Role.cells),
     .table "Security"
       ["Collection", "Policy", "Owner Field", "Read", "Create", "Update", "Delete"]
       (r.access.map CollectionAccess.cells),
     .table "Indexes" ["Collection", "Index", "Fields"]
       (r.entities.flatMap EntityBreakdown.indexCells),
     .table "Capacity"
       ["Collection", "Est. Doc Bytes", "Est. Doc Size", "Free Tier Docs", "Free Tier", "Notes"]
       (r.capacity.map CapacityRow.cells)]

/-! ## Workbook files -/

/-- The greatest number of characters of a cell. -/
def maxCellLength : Nat := 32767

/-- A text cut to the length of a cell. -/
def cellText (s : String) : String := String.ofList (s.toList.take maxCellLength)

/-- Whether no workbook can hold a character: the controls other than tab and line ends. -/
def isIllegalInCell (c : Char) : Bool :=
  let n := c.toNat
  n ≤ 8 || n == 11 || n == 12 || (14 ≤ n && n ≤ 31)

/-- The text of a cell that no workbook can hold. -/
def Cell.illegalText? : Cell → Option String
  | .text s => if (cellText s).toList.any isIllegalInCell then some (cellText s) else none
  | _ => none

/-- The first text, sheet by sheet and row by row, that no workbook can hold. -/
def Workbook.illegalText? (w : Workbook) : Option String :=
  w.sheets.findSome? fun sheet => sheet.rows.findSome? fun row => row.findSome? Cell.illegalText?

/-- Whether a cell holds an integer beyond all floating point numbers. -/
def Cell.isTooLarge : Cell → Bool
  | .int n =>
    match Binary64.ofInt n with
    | .infinite _ => true
    | _ => false
  | _ => false

/-- Whether some cell holds an integer beyond all floating point numbers. -/
def Workbook.hasTooLarge (w : Workbook) : Bool :=
  w.sheets.any fun sheet => sheet.rows.any fun row => row.any Cell.isTooLarge

/-- Why a workbook has no file. -/
inductive WorkbookFault
  | illegalText (text : String)
  | tooLarge
  deriving DecidableEq, Repr

/-- The wording of a fault. -/
def WorkbookFault.message : WorkbookFault → String
  | illegalText text => text ++ " cannot be used in worksheets."
  | tooLarge => "int too large to convert to float"

/-- The first reason why a workbook has no file. Texts are looked at before numbers. -/
def Workbook.fault? (w : Workbook) : Option WorkbookFault :=
  match w.illegalText? with
  | some text => some (.illegalText text)
  | none => if w.hasTooLarge then some .tooLarge else none

/-- A number in sixteen significant digits, as the integer or floating point number that it is
read back as. -/
def storedNumber : Binary64 → Cell
  | .finite negative magnitude =>
    if magnitude.mantissa = 0 then .int 0
    else
      let decimal := Decimal.rounded magnitude 16
      let back := Binary64.ofDecimal negative decimal.digits decimal.exponent
      match back.toInt? with
      | some n => .int n
      | none => .float back
  | _ => .empty

/-- What a workbook file keeps of a cell. -/
def Cell.stored : Cell → Cell
  | empty => empty
  | bool b => bool b
  | int n => storedNumber (Binary64.ofInt n)
  | float x => storedNumber x
  | text s => if s = "" then empty else text (Text.plainLineEnds (cellText s))

end DocSchema
