/-!
# Tables of a Markdown page

A row of a table is a line of cells between pipes. A pipe inside a cell is written with a
backslash in front of it.

## Main definitions

* `Table.row`: a row
* `Table.lines`: the header, a rule below it and the rows
-/

namespace DocSchema.Table

/-- A cell with its pipes escaped. -/
def escapeChars (cs : List Char) : List Char :=
  cs.flatMap fun c => if c = '|' then ['\\', '|'] else [c]

/-- A cell with its pipes escaped. -/
def escape (cell : String) : String := String.ofList (escapeChars cell.toList)

/-- A row of cells. -/
def row (cells : List String) : String := "| " ++ " | ".intercalate (cells.map escape) ++ " |"

/-- A table with a header. -/
def lines (header : List String) (rows : List (List String)) : List String :=
  row header :: row (header.map fun _ => "---") :: rows.map row

end DocSchema.Table
