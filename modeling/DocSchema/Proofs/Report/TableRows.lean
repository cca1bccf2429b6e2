import DocSchema.Proofs.Text.Parts

/-!
# Rows of a table

A row is read by its pipes: the cells are what stands between them. A pipe with a backslash directly
in front of it is part of a cell. Since a cell is written with a backslash in front of each of its
pipes, and with a blank behind its last character, no cell ends too soon and none too late, whatever
it holds. A line feed is not escaped: a cell that holds one breaks its row into several lines.

## Main definitions

* `Table.cells`: the cells of a line
* `Table.IsRow`: a line that is a row with a number of cells
* `Table.Intact`: a table whose lines are as many as they should be, each a row

## Main results

* `Table.cells_row`: the cells of a row
* `Table.intact_iff`: a table is intact exactly when no cell holds a line feed
-/

namespace DocSchema.Table

open Text (linesOf)

/-! ## Cells -/

/-- The parts of a line between its pipes, other than those with a backslash directly in front;
`escaped` says whether there is one in front of the first character. -/
def splitCells (escaped : Bool) : List Char → List (List Char)
  | [] => [[]]
  | c :: rest =>
    if c = '|' ∧ escaped = false then [] :: splitCells false rest
    else
      match splitCells (c == '\\') rest with
      | part :: parts => (c :: part) :: parts
      | [] => [[c]]

/-- The cells of a line, with the blanks around them. Nothing in front of the first pipe or behind
the last one is a cell. -/
def cells (line : String) : List String :=
  ((splitCells false line.toList).tail.dropLast).map String.ofList

/-- A line is a row with a number of cells: it starts and ends with a pipe. -/
structure IsRow (width : Nat) (line : String) : Prop where
  starts : line.toList.head? = some '|'
  ends : line.toList.getLast? = some '|'
  length_cells : (cells line).length = width

/-- A character other than a pipe belongs to the cell in front of which it stands. -/
theorem splitCells_cons_of_ne {c : Char} (hc : c ≠ '|') (escaped : Bool) {rest part : List Char}
    {parts : List (List Char)} (h : splitCells (c == '\\') rest = part :: parts) :
    splitCells escaped (c :: rest) = (c :: part) :: parts := by
  rw [splitCells, if_neg fun hpipe => hc hpipe.1, h]

theorem escapeChars_cons (c : Char) (cs : List Char) :
    escapeChars (c :: cs) = (if c = '|' then ['\\', '|'] else [c]) ++ escapeChars cs := rfl

/-- No cell starts with a pipe. -/
theorem head?_escapeChars_ne (cs : List Char) : (escapeChars cs).head? ≠ some '|' := by
  cases cs with
  | nil => nofun
  | cons c cs =>
    rw [escapeChars_cons]
    split_ifs with hc
    · simp
    · simpa using hc

/-- What is escaped belongs to one cell, together with the blank behind it. -/
theorem splitCells_escapeChars (cs : List Char) (escaped : Bool) {rest part : List Char}
    {parts : List (List Char)} (h : splitCells false rest = part :: parts) :
    splitCells escaped (escapeChars cs ++ ' ' :: rest) =
      (escapeChars cs ++ ' ' :: part) :: parts := by
  induction cs generalizing escaped with
  | nil => exact splitCells_cons_of_ne (by decide) _ h
  | cons c cs ih =>
    rw [escapeChars_cons]
    split_ifs with hc
    · -- The backslash lets the pipe through, and the pipe itself is no backslash.
      have hpipe : splitCells true ('|' :: (escapeChars cs ++ ' ' :: rest)) =
          ('|' :: (escapeChars cs ++ ' ' :: part)) :: parts := by
        rw [splitCells, if_neg nofun, ih]
      exact splitCells_cons_of_ne (by decide) _ hpipe
    · exact splitCells_cons_of_ne hc _ (ih _)

/-- The characters of a row behind its first pipe. -/
def rowChars : List String → List Char
  | [] => []
  | cell :: cells => ' ' :: (escapeChars cell.toList ++ ' ' :: '|' :: rowChars cells)

theorem toList_row {cells : List String} (h : cells ≠ []) :
    (row cells).toList = '|' :: rowChars cells := by
  rw [row, String.toList_append, String.toList_append]
  induction cells with
  | nil => exact absurd rfl h
  | cons cell cells ih =>
    cases cells with
    | nil => simp [rowChars, escape]
    | cons next cells =>
      have hrest := ih (List.cons_ne_nil _ _)
      have hbetween : " | ".toList = [' '] ++ "| ".toList := rfl
      rw [List.map_cons, List.map_cons, String.intercalate_cons_cons, ← List.map_cons]
      simp only [String.toList_append, List.append_assoc, hbetween] at hrest ⊢
      rw [hrest, escape, @String.toList_ofList (escapeChars cell.toList)]
      rfl

theorem splitCells_rowChars (cells : List String) :
    splitCells false (rowChars cells) =
      cells.map (fun cell => ' ' :: (escapeChars cell.toList ++ [' '])) ++ [[]] := by
  induction cells with
  | nil => rfl
  | cons cell cells ih =>
    have hpipe : splitCells false ('|' :: rowChars cells) = [] :: splitCells false (rowChars cells) :=
      rfl
    rw [rowChars, splitCells_cons_of_ne (by decide) false (splitCells_escapeChars _ _ hpipe), ih]
    rfl

/-- **The cells of a row** are those that it is made of. -/
theorem cells_row {row' : List String} (h : row' ≠ []) :
    cells (row row') = row'.map fun cell => " " ++ escape cell ++ " " := by
  have hpipe : splitCells false ('|' :: rowChars row') = [] :: splitCells false (rowChars row') :=
    rfl
  rw [cells, toList_row h, hpipe, splitCells_rowChars, List.tail_cons, List.dropLast_concat,
    List.map_map]
  refine List.map_congr_left fun cell _ => ?_
  rw [Function.comp_apply, ← String.toList_inj, String.toList_ofList]
  simp [escape]

theorem getLast?_rowChars {cells : List String} (h : cells ≠ []) :
    (rowChars cells).getLast? = some '|' := by
  induction cells with
  | nil => exact absurd rfl h
  | cons cell cells ih =>
    rw [rowChars, List.getLast?_cons, List.getLast?_append_of_ne_nil _ (List.cons_ne_nil _ _)]
    cases cells with
    | nil => rfl
    | cons next cells =>
      rw [List.getLast?_cons_cons, List.getLast?_cons, ih (List.cons_ne_nil _ _)]
      rfl

theorem isRow_row {cells : List String} (h : cells ≠ []) : IsRow cells.length (row cells) where
  starts := by rw [toList_row h, List.head?_cons]
  ends := by rw [toList_row h, List.getLast?_cons, getLast?_rowChars h]; rfl
  length_cells := by rw [cells_row h, List.length_map]

/-! ## Line feeds -/

theorem newline_notMem_escapeChars {cs : List Char} : '\n' ∉ escapeChars cs ↔ '\n' ∉ cs := by
  induction cs with
  | nil => rfl
  | cons c cs ih =>
    rw [escapeChars_cons, List.mem_append, not_or, ih, List.mem_cons,
      not_or]
    refine and_congr_left fun _ => ?_
    split_ifs with hc
    · rw [hc]
      decide
    · rw [List.mem_singleton]

theorem newline_notMem_rowChars {cells : List String} :
    '\n' ∉ rowChars cells ↔ ∀ cell ∈ cells, '\n' ∉ cell.toList := by
  induction cells with
  | nil => simp [rowChars]
  | cons cell cells ih => simp [rowChars, ← ih, newline_notMem_escapeChars]

theorem newline_notMem_row {cells : List String} (h : cells ≠ []) :
    '\n' ∉ (row cells).toList ↔ ∀ cell ∈ cells, '\n' ∉ cell.toList := by
  rw [toList_row h, List.mem_cons, not_or, newline_notMem_rowChars]
  exact and_iff_right (by decide)

/-! ## Tables -/

/-- A table is intact: it has a line for its header, one for the rule below, and one for each of its
rows, all with as many cells as the header. -/
structure Intact (header : List String) (rows : List (List String)) : Prop where
  length_lines : (linesOf (joinLines (lines header rows))).length = rows.length + 2
  isRow : ∀ line ∈ linesOf (joinLines (lines header rows)), IsRow header.length line

/-- The rows of a table with their cells, including the header and the rule. -/
def allRows (header : List String) (rows : List (List String)) : List (List String) :=
  header :: (header.map fun _ => "---") :: rows

theorem lines_eq (header : List String) (rows : List (List String)) :
    lines header rows = (allRows header rows).map row := rfl

theorem linesOf_lines (header : List String) (rows : List (List String)) :
    linesOf (joinLines (lines header rows)) = (lines header rows).flatMap linesOf :=
  Text.linesOf_joinLines (List.cons_ne_nil _ _)

theorem length_linesOf (s : String) : (linesOf s).length = s.toList.count '\n' + 1 := by
  rw [linesOf, List.length_map, Text.splitLines, Text.length_splitAt]

/-- Texts have as many lines as they are only if none of them has a line feed. -/
theorem length_flatMap_linesOf {lines : List String} :
    (lines.flatMap linesOf).length = lines.length ↔ ∀ line ∈ lines, '\n' ∉ line.toList := by
  have hle : ∀ lines : List String, lines.length ≤ (lines.flatMap linesOf).length := by
    intro lines
    induction lines with
    | nil => exact Nat.le_refl _
    | cons line lines ih =>
      rw [List.flatMap_cons, List.length_append, length_linesOf, List.length_cons]
      omega
  induction lines with
  | nil => simp
  | cons line lines ih =>
    have hrest := hle lines
    rw [List.forall_mem_cons, List.flatMap_cons, List.length_append, length_linesOf,
      List.length_cons, ← List.count_eq_zero]
    refine Iff.trans ?_ (and_congr_right fun _ => ih)
    omega

/-- **Tables.** A table, all of whose rows have a cell for every column, is intact exactly when no
cell of it holds a line feed. -/
theorem intact_iff {header : List String} {rows : List (List String)} (hheader : header ≠ [])
    (hrows : ∀ row ∈ rows, row.length = header.length) :
    Intact header rows ↔
      (∀ cell ∈ header, '\n' ∉ cell.toList) ∧ ∀ row ∈ rows, ∀ cell ∈ row, '\n' ∉ cell.toList := by
  have hlength : ∀ cells ∈ allRows header rows, cells.length = header.length := by
    simpa [allRows] using hrows
  have hne : ∀ cells ∈ allRows header rows, cells ≠ [] := fun cells hcells =>
    List.ne_nil_of_length_pos (hlength cells hcells ▸ List.length_pos_of_ne_nil hheader)
  have hclean : (∀ line ∈ lines header rows, '\n' ∉ line.toList) ↔
      (∀ cell ∈ header, '\n' ∉ cell.toList) ∧ ∀ row ∈ rows, ∀ cell ∈ row, '\n' ∉ cell.toList := by
    have hrule : ∀ cell ∈ header.map fun _ => "---", '\n' ∉ cell.toList := by simp
    rw [lines_eq, List.forall_mem_map]
    calc (∀ cells ∈ allRows header rows, '\n' ∉ (row cells).toList)
        ↔ ∀ cells ∈ allRows header rows, ∀ cell ∈ cells, '\n' ∉ cell.toList :=
          forall₂_congr fun cells hcells => newline_notMem_row (hne cells hcells)
      _ ↔ _ := by
          rw [allRows, List.forall_mem_cons, List.forall_mem_cons]
          exact and_congr_right fun _ => and_iff_right hrule
  rw [← hclean]
  refine ⟨fun h => ?_, fun h => ⟨?_, ?_⟩⟩
  · have hlines := h.length_lines
    rw [linesOf_lines] at hlines
    refine length_flatMap_linesOf.mp (hlines.trans ?_)
    rw [lines_eq, List.length_map]
    rfl
  · rw [linesOf_lines, Text.flatMap_linesOf_of_notMem h, lines_eq, List.length_map]
    rfl
  · rw [linesOf_lines, Text.flatMap_linesOf_of_notMem h, lines_eq, List.forall_mem_map]
    intro cells hcells
    rw [← hlength cells hcells]
    exact isRow_row (hne cells hcells)

end DocSchema.Table
