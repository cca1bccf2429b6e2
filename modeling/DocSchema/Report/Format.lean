import DocSchema.Report.Markdown
import DocSchema.Report.Record
import DocSchema.Value

/-!
# Formats of a report

A report is given as a record, as a text or as a workbook. The first two can be held in memory; a
workbook exists only as a file.

## Main definitions

* `ReportFormat`, with `ReportFormat.ofName?` for the name of a format
* `Report.shown?`: the text that a format shows
* `Schema.render`: the report on a schema in a format that is asked for by any value
-/

namespace DocSchema

/-- The formats of a report. -/
inductive ReportFormat
  | structured
  | text
  | workbook
  deriving DecidableEq, Repr

namespace ReportFormat

/-- The name of a format. -/
def name : ReportFormat → String
  | structured => "structured"
  | text => "text"
  | workbook => "xlsx"

/-- All formats. -/
def all : List ReportFormat := [structured, text, workbook]

/-- The format with a given name. -/
def ofName? (s : String) : Option ReportFormat := all.find? fun f => f.name == s

end ReportFormat

/-- What a format shows of a report. -/
def Report.shown? (r : Report) : ReportFormat → Option String
  | .structured => some r.recordText
  | .text => some r.markdown
  | .workbook => none

/-! ## Reports in memory -/

/-- Why a report is not given. -/
inductive FormatFault
  /-- No format is called like that. -/
  | unknown (asked : Value)
  /-- The format exists only as a file. -/
  | onlyFile
  deriving Repr

/-- The wording for a format that nobody knows. -/
def unknownFormatMessage (asked : String) : String := "Unsupported report format: " ++ asked

/-- The wording of a fault. -/
def FormatFault.message : FormatFault → String
  | unknown asked => unknownFormatMessage asked.display
  | onlyFile => "Workbook reports can only be exported to a file."

/-- A report that is held in memory. -/
inductive Rendering
  | record (content : Json)
  | text (content : String)
  deriving Repr

/-- The report on a schema in the format that a value names. -/
def Schema.render (s : Schema) (asked : Value) : Except FormatFault Rendering :=
  let format? := match asked with
    | .text name => ReportFormat.ofName? name
    | _ => none
  match format? with
  | none => .error (.unknown asked)
  | some .structured => .ok (.record s.report.record)
  | some .text => .ok (.text s.report.markdown)
  | some .workbook => .error .onlyFile

end DocSchema
