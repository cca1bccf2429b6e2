import DocSchema.Proofs.Report.TableRows

/-!
# Reading rows of a table

A row is read by undoing what was done to write it: it is cut at its pipes, other than those with a
backslash directly in front, the empty texts outside the first and the last pipe are dropped, each
cell loses one blank at either end, and each backslash directly in front of a pipe is deleted.

This needs no care for backslashes and blanks that belong to a cell, although backslashes and blanks
are what a row is marked up with. A cell may end in a backslash, because the blank behind it keeps
the backslash from the next pipe. A cell may have a backslash in front of a pipe, because the pipe
gets one of its own, and reading deletes one.

Only a row without cells is lost: it looks like the row of one empty cell.

## Main definitions

* `Table.read?`: the cells that a line is read as
* `Table.PipesEscaped`: a text has a backslash in front of each pipe

## Main results

* `Table.read?_eq_some_iff`: what lines are read as a row
* `Table.rows_readable`: a row is read back, from no other line, and is not the row of other cells
-/

namespace DocSchema.Table

/-! ## Reading -/

/-- The characters of a cell without the backslashes directly in front of pipes. -/
def unescapeChars : List Char → List Char
  | [] => []
  | c :: rest =>
    if c = '\\' ∧ rest.head? = some '|' then unescapeChars rest else c :: unescapeChars rest

/-- What stands between a blank at the start and a blank at the end. -/
def unpad? : List Char → Option (List Char)
  | [] => none
  | c :: rest => if c = ' ' ∧ rest.getLast? = some ' ' then some rest.dropLast else none

/-- The cell that stands between two pipes. -/
def readCell? (part : List Char) : Option String :=
  (unpad? part).map fun cs => String.ofList (unescapeChars cs)

/-- The cells behind the first pipe. There is nothing behind the last one. -/
def readCells? : List (List Char) → Option (List String)
  | [] => none
  | [last] => if last = [] then some [] else none
  | part :: parts => (readCell? part).bind fun cell => (readCells? parts).map (cell :: ·)

/-- The cells that a line is read as, if it is a row. There is nothing in front of the first
pipe. -/
def read? (line : String) : Option (List String) :=
  match splitCells false line.toList with
  | [] :: parts => readCells? parts
  | _ => none

/-! ## Escaped pipes -/

theorem unescapeChars_cons_of_ne {c : Char} (hc : c ≠ '\\') (rest : List Char) :
    unescapeChars (c :: rest) = c :: unescapeChars rest := by
  rw [unescapeChars, if_neg fun h => hc h.1]

theorem unescapeChars_escapeChars (cs : List Char) : unescapeChars (escapeChars cs) = cs := by
  induction cs with
  | nil => rfl
  | cons c cs ih =>
    rw [escapeChars_cons]
    split_ifs with hc
    · rw [List.cons_append, List.singleton_append, unescapeChars, if_pos ⟨rfl, rfl⟩,
        unescapeChars_cons_of_ne (by decide), ih, hc]
    · -- A backslash of the cell has no pipe behind it: the pipe has its own in between.
      rw [List.singleton_append, unescapeChars, if_neg fun h => head?_escapeChars_ne cs h.2, ih]

/-- A text has a backslash directly in front of each pipe; `escaped` says whether there is one in
front of the first character. -/
def PipesEscaped (escaped : Bool) : List Char → Prop
  | [] => True
  | c :: rest => (c = '|' → escaped = true) ∧ PipesEscaped (c == '\\') rest

theorem PipesEscaped.of_append {escaped : Bool} {a b : List Char}
    (h : PipesEscaped escaped (a ++ b)) : PipesEscaped escaped a := by
  induction a generalizing escaped with
  | nil => trivial
  | cons c a ih => exact ⟨h.1, ih h.2⟩

/-- A pipe at the start has a backslash in front of it. -/
theorem PipesEscaped.of_head? {escaped : Bool} {cs : List Char} (h : PipesEscaped escaped cs)
    (hhead : cs.head? = some '|') : escaped = true := by
  cases cs with
  | nil => nomatch hhead
  | cons c cs => exact h.1 (Option.some.inj hhead)

/-- Deleted backslashes are written again, also one in front of the text. -/
theorem escapeChars_unescapeChars_of {escaped : Bool} {cs : List Char}
    (h : PipesEscaped escaped cs) :
    escapeChars (unescapeChars cs) = if cs.head? = some '|' then '\\' :: cs else cs := by
  induction cs generalizing escaped with
  | nil => rfl
  | cons c rest ih =>
    have hrest := ih h.2
    by_cases hpipe : c = '\\' ∧ rest.head? = some '|'
    · rw [unescapeChars, if_pos hpipe, hrest, if_pos hpipe.2, hpipe.1]
      rfl
    · have hnext : rest.head? ≠ some '|' := fun hhead =>
        hpipe ⟨beq_iff_eq.mp (h.2.of_head? hhead), hhead⟩
      rw [if_neg hnext] at hrest
      rw [unescapeChars, if_neg hpipe, escapeChars_cons, hrest]
      by_cases hc : c = '|' <;> simp [hc]

theorem escapeChars_unescapeChars {cs : List Char} (h : PipesEscaped false cs) :
    escapeChars (unescapeChars cs) = cs := by
  rw [escapeChars_unescapeChars_of h, if_neg fun hhead => Bool.false_ne_true (h.of_head? hhead)]

/-! ## Parts between pipes -/

theorem exists_cons_splitCells (escaped : Bool) (cs : List Char) :
    ∃ part parts, splitCells escaped cs = part :: parts := by
  cases cs with
  | nil => exact ⟨_, _, rfl⟩
  | cons c rest =>
    rw [splitCells]
    split_ifs
    · exact ⟨_, _, rfl⟩
    · split <;> exact ⟨_, _, rfl⟩

/-- A line is cut at its first character if that is a pipe with no backslash in front; any other
first character belongs to the first part. -/
theorem splitCells_cons (escaped : Bool) (c : Char) (rest : List Char) :
    (c = '|' ∧ escaped = false ∧ splitCells escaped (c :: rest) = [] :: splitCells false rest) ∨
      (c = '|' → escaped = true) ∧ ∃ part parts, splitCells (c == '\\') rest = part :: parts ∧
        splitCells escaped (c :: rest) = (c :: part) :: parts := by
  by_cases hc : c = '|' ∧ escaped = false
  · exact .inl ⟨hc.1, hc.2, by rw [splitCells, if_pos hc]⟩
  · obtain ⟨part, parts, hsplit⟩ := exists_cons_splitCells (c == '\\') rest
    refine .inr ⟨fun hpipe => ?_, part, parts, hsplit, by rw [splitCells, if_neg hc, hsplit]⟩
    exact eq_true_of_ne_false fun hescaped => hc ⟨hpipe, hescaped⟩

/-- A line is cut at each pipe that has no backslash in front. -/
theorem pipesEscaped_of_splitCells {escaped : Bool} {cs part : List Char}
    {parts : List (List Char)} (h : splitCells escaped cs = part :: parts) :
    PipesEscaped escaped part ∧ ∀ other ∈ parts, PipesEscaped false other := by
  induction cs generalizing escaped part parts with
  | nil =>
    obtain ⟨rfl, rfl⟩ := List.cons.inj h
    exact ⟨trivial, List.forall_mem_nil _⟩
  | cons c rest ih =>
    obtain ⟨-, -, hcut⟩ | ⟨hc, next, others, hsplit, hkept⟩ := splitCells_cons escaped c rest
    · obtain ⟨rfl, rfl⟩ := List.cons.inj (hcut.symm.trans h)
      obtain ⟨next, others, hsplit⟩ := exists_cons_splitCells false rest
      have hrest := ih hsplit
      rw [hsplit, List.forall_mem_cons]
      exact ⟨trivial, hrest⟩
    · obtain ⟨rfl, rfl⟩ := List.cons.inj (hkept.symm.trans h)
      have hrest := ih hsplit
      exact ⟨⟨hc, hrest.1⟩, hrest.2⟩

/-- The parts of a line with a pipe behind each are the line with a pipe behind it. -/
theorem flatMap_splitCells (escaped : Bool) (cs : List Char) :
    (splitCells escaped cs).flatMap (fun part => part ++ ['|']) = cs ++ ['|'] := by
  induction cs generalizing escaped with
  | nil => rfl
  | cons c rest ih =>
    obtain ⟨rfl, -, hcut⟩ | ⟨-, part, parts, hsplit, hkept⟩ := splitCells_cons escaped c rest
    · rw [hcut, List.flatMap_cons, ih]
      rfl
    · have hrest := ih (c == '\\')
      rw [hsplit, List.flatMap_cons] at hrest
      rw [hkept, List.flatMap_cons, List.cons_append, List.cons_append, hrest, List.cons_append]

/-- A line is determined by its parts. -/
theorem splitCells_inj {a b : List Char} : splitCells false a = splitCells false b ↔ a = b := by
  refine ⟨fun h => ?_, congrArg _⟩
  have hpipes := congrArg (List.flatMap fun part => part ++ ['|']) h
  rw [flatMap_splitCells, flatMap_splitCells] at hpipes
  exact List.append_cancel_right hpipes

/-! ## Cells -/

/-- What stands between two pipes of a row: a cell with its pipes escaped, between two blanks. -/
def cellChars (cell : String) : List Char := ' ' :: (escapeChars cell.toList ++ [' '])

theorem unpad?_eq_some_iff {part cs : List Char} :
    unpad? part = some cs ↔ part = ' ' :: (cs ++ [' ']) := by
  cases part with
  | nil => simp [unpad?]
  | cons c rest =>
    rw [unpad?, List.cons.injEq]
    constructor
    · intro h
      split_ifs at h with hblanks
      obtain ⟨front, hfront⟩ := List.getLast?_eq_some_iff.mp hblanks.2
      rw [hfront, List.dropLast_concat, Option.some.injEq] at h
      exact ⟨hblanks.1, h ▸ hfront⟩
    · rintro ⟨rfl, rfl⟩
      rw [if_pos ⟨rfl, List.getLast?_concat⟩, List.dropLast_concat]

theorem readCell?_eq_some_iff {part : List Char} (h : PipesEscaped false part) {cell : String} :
    readCell? part = some cell ↔ part = cellChars cell := by
  rw [readCell?, Option.map_eq_some_iff]
  constructor
  · rintro ⟨cs, hcs, rfl⟩
    obtain rfl := unpad?_eq_some_iff.mp hcs
    have hescaped : PipesEscaped false cs := PipesEscaped.of_append h.2
    rw [cellChars, String.toList_ofList, escapeChars_unescapeChars hescaped]
  · rintro rfl
    refine ⟨_, unpad?_eq_some_iff.mpr rfl, ?_⟩
    rw [unescapeChars_escapeChars, String.ofList_toList]

theorem readCells?_eq_some_iff {parts : List (List Char)}
    (h : ∀ part ∈ parts, PipesEscaped false part) {cells : List String} :
    readCells? parts = some cells ↔ parts = cells.map cellChars ++ [[]] := by
  induction parts generalizing cells with
  | nil => simp [readCells?]
  | cons part parts ih =>
    rw [List.forall_mem_cons] at h
    cases parts with
    | nil =>
      cases cells with
      | nil => simp [readCells?]
      | cons cell cells => simp [readCells?]
    | cons next parts =>
      simp only [readCells?, Option.bind_eq_some_iff, Option.map_eq_some_iff, ih h.2,
        readCell?_eq_some_iff h.1]
      cases cells with
      | nil => simp
      | cons cell cells => simp

/-! ## Rows -/

theorem splitCells_row {cells : List String} (h : cells ≠ []) :
    splitCells false (row cells).toList = [] :: (cells.map cellChars ++ [[]]) := by
  rw [toList_row h]
  exact congrArg (List.cons []) (splitCells_rowChars cells)

/-- **Lines that are read as a row** of some cells: the row that is written for them, and no
other line. -/
theorem read?_eq_some_iff {cells : List String} (h : cells ≠ []) {line : String} :
    read? line = some cells ↔ line = row cells := by
  obtain ⟨first, parts, hsplit⟩ := exists_cons_splitCells false line.toList
  have hescaped := (pipesEscaped_of_splitCells hsplit).2
  calc read? line = some cells
      ↔ first = [] ∧ parts = cells.map cellChars ++ [[]] := by
        rw [read?, hsplit]
        cases first with
        | nil => simp [readCells?_eq_some_iff hescaped]
        | cons c first => simp
    _ ↔ splitCells false line.toList = splitCells false (row cells).toList := by
        rw [hsplit, splitCells_row h, List.cons.injEq]
    _ ↔ line = row cells := by rw [splitCells_inj, String.toList_inj]

/-- Without cells the row is read as one empty cell. -/
example : row [] = row [""] := by rfl

/-- **Rows are readable.** A row of cells is read as these cells, whatever they hold. No other line
is read as them, and the row of other cells is another line. -/
theorem rows_readable {cells : List String} (h : cells ≠ []) :
    read? (row cells) = some cells ∧
      (∀ line, read? line = some cells → line = row cells) ∧
      ∀ others, others ≠ [] → others ≠ cells → row others ≠ row cells := by
  refine ⟨(read?_eq_some_iff h).mpr rfl, fun line => (read?_eq_some_iff h).mp, ?_⟩
  intro others hothers hne hrow
  have hread : read? (row cells) = some others := (read?_eq_some_iff hothers).mpr hrow.symm
  rw [(read?_eq_some_iff h).mpr rfl, Option.some.injEq] at hread
  exact hne hread.symm

/-- Cells full of pipes, backslashes and blanks are read back. -/
theorem untidyCells_readable :
    ["|a\\", " \\| ", ""] ≠ [] ∧
      row ["|a\\", " \\| ", ""] = "| \\|a\\ |  \\\\|  |  |" ∧
      read? "| \\|a\\ |  \\\\|  |  |" = some ["|a\\", " \\| ", ""] := by
  have hrow : row ["|a\\", " \\| ", ""] = "| \\|a\\ |  \\\\|  |  |" := by rfl
  have hne : ["|a\\", " \\| ", ""] ≠ [] := List.cons_ne_nil _ _
  exact ⟨hne, hrow, hrow ▸ (rows_readable hne).1⟩

end DocSchema.Table
