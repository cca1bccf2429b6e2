import DocSchema.Proofs.Json.Compact
import DocSchema.Proofs.Report.TableRows
import DocSchema.Report.Basic

/-!
# Lines of three dashes

A rule of three dashes stands in front of each page of the Markdown document. A text of a schema that
holds a line feed can bring such a line with it. Whether a line of the document has become one can be
seen from the texts in it alone, since what stands around them is fixed and has no dashes next to
them. Figures and the written forms of other values are on one line and do no harm.

## Main definitions

* `HoldsBreak`: a text with a line of three dashes between two others
* `Unbroken`: texts without such a line

## Main results

* `break_mem_linesOf`: a text has the line if it holds a break between two line feeds
* `newline_notMem_defaultText`: only defaults that are texts can have line feeds
* `Role.break_mem_line_iff`, `RelationshipSummary.break_mem_line_iff` and others: which texts in a
  line of the document bring a break
-/

namespace DocSchema

open Text (linesOf)

/-! ## Lines of three dashes -/

/-- A text has a line of three dashes that is neither its first nor its last line. -/
def HoldsBreak (cs : List Char) : Prop := ['\n', '-', '-', '-', '\n'] <:+: cs

instance (cs : List Char) : Decidable (HoldsBreak cs) :=
  inferInstanceAs (Decidable (['\n', '-', '-', '-', '\n'] <:+: cs))

theorem break_mem_linesOf {s : String} :
    "---" ∈ linesOf s ↔ HoldsBreak ('\n' :: (s.toList ++ ['\n'])) := by
  have hmem : "---" ∈ linesOf s ↔ ['-', '-', '-'] ∈ Text.splitAt '\n' s.toList := by
    rw [linesOf, List.mem_map]
    constructor
    · rintro ⟨part, hpart, heq⟩
      have hchars := congrArg String.toList heq
      rw [String.toList_ofList] at hchars
      rwa [hchars] at hpart
    · exact fun h => ⟨_, h, rfl⟩
  rw [hmem, Text.mem_splitAt_iff]
  exact and_iff_right (by decide)

/-- A break takes two line feeds. -/
theorem not_holdsBreak_of_count_lt {cs : List Char} (h : cs.count '\n' < 2) : ¬ HoldsBreak cs := by
  intro hbreak
  have htwo : 2 ≤ cs.count '\n' := hbreak.sublist.count_le '\n'
  omega

theorem not_holdsBreak_of_notMem {cs : List Char} (h : '\n' ∉ cs) : ¬ HoldsBreak cs :=
  not_holdsBreak_of_count_lt (by rw [List.count_eq_zero_of_not_mem h]; decide)

theorem not_holdsBreak_newline_cons_of_notMem {cs : List Char} (h : '\n' ∉ cs) :
    ¬ HoldsBreak ('\n' :: cs) :=
  not_holdsBreak_of_count_lt (by
    rw [List.count_cons_self, List.count_eq_zero_of_not_mem h]
    decide)

theorem not_holdsBreak_concat_of_notMem {cs : List Char} (h : '\n' ∉ cs) :
    ¬ HoldsBreak (cs ++ ['\n']) :=
  not_holdsBreak_of_count_lt (by
    rw [List.count_append, List.count_eq_zero_of_not_mem h]
    decide)

section Marks

variable {c : Char} {a b : List Char}

/-- Any other character than those of a break keeps the two sides apart. -/
theorem holdsBreak_append_cons (hc : c ∉ ['\n', '-']) :
    HoldsBreak (a ++ c :: b) ↔ HoldsBreak a ∨ HoldsBreak b :=
  Text.infix_append_cons_iff (by simp_all)

theorem holdsBreak_cons (hc : c ∉ ['\n', '-']) : HoldsBreak (c :: b) ↔ HoldsBreak b := by
  rw [← List.nil_append (c :: b), holdsBreak_append_cons hc]
  exact or_iff_right (by decide)

theorem holdsBreak_newline_cons (hc : c ∉ ['\n', '-']) :
    HoldsBreak ('\n' :: c :: b) ↔ HoldsBreak b := by
  rw [← List.singleton_append, holdsBreak_append_cons hc]
  exact or_iff_right (by decide)

theorem holdsBreak_newline_dash_cons (hc : c ∉ ['\n', '-']) :
    HoldsBreak ('\n' :: '-' :: c :: b) ↔ HoldsBreak b := by
  show HoldsBreak (['\n', '-'] ++ c :: b) ↔ _
  rw [holdsBreak_append_cons hc]
  exact or_iff_right (by decide)

theorem holdsBreak_newline_append_cons (hc : c ∉ ['\n', '-']) :
    HoldsBreak ('\n' :: (a ++ c :: b)) ↔ HoldsBreak ('\n' :: a) ∨ HoldsBreak b := by
  rw [← List.cons_append, holdsBreak_append_cons hc]

theorem not_holdsBreak_newline : ¬ HoldsBreak ['\n'] := by decide

end Marks

/-! ## Fixed parts and figures -/

theorem newline_notMem_toString (n : Nat) : '\n' ∉ (toString n).toList := by
  rw [Nat.toString_eq_repr, Nat.toList_repr]
  exact Json.newline_notMem_of_isNumberChar (Json.isDigits_digitChars n).isNumberChar

theorem newline_notMem_relationshipArrow (type : String) :
    '\n' ∉ (relationshipArrow type).toList := by
  rw [relationshipArrow]
  split_ifs <;> decide

theorem newline_notMem_fixedChars (units places : Nat) :
    '\n' ∉ Number.fixedChars units places := by
  have hdigits := Json.newline_notMem_of_isNumberChar
    (((Json.isDigits_digitChars units).replicate_append
      (places + 1 - (Number.digitChars units).length)).isNumberChar)
  rw [Number.fixedChars]
  split_ifs
  · exact hdigits
  · rw [List.mem_append, List.mem_cons, not_or, not_or]
    exact ⟨fun h => hdigits (List.mem_of_mem_take h), by decide,
      fun h => hdigits (List.mem_of_mem_drop h)⟩

theorem newline_notMem_quotientText (num : Int) (den places : Nat) :
    '\n' ∉ (quotientText num den places).toList := by
  rw [quotientText, String.toList_ofList, List.mem_append, not_or]
  refine ⟨?_, newline_notMem_fixedChars _ _⟩
  split_ifs <;> decide

theorem newline_notMem_docSizeText (bytes : Nat) : '\n' ∉ (docSizeText bytes).toList := by
  rw [docSizeText]
  split_ifs
  · have hnat : toString (bytes : Int) = toString bytes := rfl
    rw [hnat, Text.notMem_toList_append, Text.notMem_toList_append]
    exact ⟨⟨by decide, newline_notMem_toString bytes⟩, by decide⟩
  · rw [Text.notMem_toList_append, Text.notMem_toList_append]
    exact ⟨⟨by decide, newline_notMem_quotientText _ _ _⟩, by decide⟩

theorem newline_notMem_freeTierText (docs : Option Int) :
    '\n' ∉ (freeTierText docs).toList := by
  cases docs with
  | none => decide
  | some docs =>
    rw [freeTierText]
    split_ifs <;> simp [newline_notMem_quotientText]

theorem newline_notMem_defaultText {j : Json} :
    '\n' ∉ (defaultText j).toList ↔ ∀ s, j = .text s → '\n' ∉ s.toList := by
  cases j with
  | null => exact iff_of_true (by decide) nofun
  | text s =>
    rw [defaultText]
    split_ifs with hs
    · rw [hs]
      exact iff_of_true (by decide) fun t ht => by cases ht; decide
    · exact ⟨fun h t ht => by cases ht; exact h, fun h => h s rfl⟩
  | _ =>
    refine iff_of_true ?_ nofun
    rw [defaultText, Json.compact, String.toList_ofList]
    · exact Json.newline_notMem_compactChars _
    all_goals nofun

/-! ## Lines with texts in them -/

/-- A text of one line is no break, unless it is one as a whole. -/
theorem break_notMem_of_notMem {line : String} (h : '\n' ∉ line.toList) (hline : line ≠ "---") :
    "---" ∉ linesOf line := by
  rw [Text.linesOf_of_notMem h, List.mem_singleton]
  exact hline.symm

theorem RelationshipSummary.break_mem_line_iff (r : Relationship) :
    "---" ∈ linesOf r.summary.line ↔ HoldsBreak r.type.toList ∨
      HoldsBreak r.targetEntity.toList ∨ HoldsBreak r.viaField.toList := by
  have harrow := not_holdsBreak_of_notMem (newline_notMem_relationshipArrow r.type)
  rw [break_mem_linesOf, line, Relationship.summary]
  simp only [String.toList_append, List.append_assoc]
  simp (disch := decide) [holdsBreak_newline_dash_cons, holdsBreak_cons, holdsBreak_append_cons,
    harrow, not_holdsBreak_newline]

theorem Role.break_mem_line_iff (r : Role) :
    "---" ∈ linesOf r.line ↔ HoldsBreak r.role.toList ∨
      HoldsBreak ((", ".intercalate r.permissions).toList ++ ['\n']) := by
  have hstandard : ¬ HoldsBreak ("standard permissions".toList ++ ['\n']) := by decide +kernel
  have hpermissions : HoldsBreak ((if ", ".intercalate r.permissions = "" then
      "standard permissions" else ", ".intercalate r.permissions).toList ++ ['\n']) ↔
      HoldsBreak ((", ".intercalate r.permissions).toList ++ ['\n']) := by
    split_ifs with hnone
    · rw [hnone]
      exact iff_of_false hstandard not_holdsBreak_newline
    · rfl
  rw [break_mem_linesOf, line, ← hpermissions]
  simp only [String.toList_append, List.append_assoc]
  simp (disch := decide) [holdsBreak_newline_dash_cons, holdsBreak_cons, holdsBreak_append_cons]

theorem break_mem_indexLine_iff (position : Nat) (spec : String) :
    "---" ∈ linesOf (toString position ++ ". Composite: [" ++ spec ++ "]") ↔
      HoldsBreak spec.toList := by
  have hposition := not_holdsBreak_newline_cons_of_notMem (newline_notMem_toString position)
  rw [break_mem_linesOf]
  simp only [String.toList_append, List.append_assoc]
  generalize (toString position).toList = digits at hposition
  simp (disch := decide) [holdsBreak_newline_append_cons, holdsBreak_cons, holdsBreak_append_cons,
    hposition, not_holdsBreak_newline]

theorem break_mem_modelLine_iff (model : String) :
    "---" ∈ linesOf ("**Model:** " ++ model) ↔ HoldsBreak (model.toList ++ ['\n']) := by
  rw [break_mem_linesOf]
  simp only [String.toList_append, List.append_assoc]
  simp (disch := decide) [holdsBreak_newline_cons, holdsBreak_cons]

theorem break_mem_modelHeading_iff (model : String) :
    "---" ∈ linesOf ("### " ++ model) ↔ HoldsBreak (model.toList ++ ['\n']) := by
  rw [break_mem_linesOf]
  simp only [String.toList_append, List.append_assoc]
  simp (disch := decide) [holdsBreak_newline_cons, holdsBreak_cons]

/-- The heading of an entity. -/
theorem break_notMem_collectionHeading {collection : String} (h : '\n' ∉ collection.toList)
    (position : Nat) : "---" ∉ linesOf ("### " ++ toString position ++ ". " ++ collection ++ "/") := by
  have hposition := not_holdsBreak_of_notMem (newline_notMem_toString position)
  rw [break_mem_linesOf]
  simp only [String.toList_append, List.append_assoc]
  generalize (toString position).toList = digits at hposition
  simp (disch := decide) [holdsBreak_newline_cons, holdsBreak_cons, holdsBreak_append_cons,
    hposition, not_holdsBreak_newline, not_holdsBreak_of_notMem h]

/-- A line of the page of totals. -/
theorem break_mem_figureLine_iff (label : String) (n : Nat) :
    "---" ∈ linesOf ("- " ++ label ++ " " ++ toString n) ↔ HoldsBreak label.toList := by
  have hn := not_holdsBreak_concat_of_notMem (newline_notMem_toString n)
  rw [break_mem_linesOf]
  simp only [String.toList_append, List.append_assoc]
  generalize (toString n).toList = digits at hn
  simp (disch := decide) [holdsBreak_newline_dash_cons, holdsBreak_append_cons, hn]

/-! ## Several lines -/

/-- No line of some texts is a break. -/
def Unbroken (lines : List String) : Prop := ∀ line ∈ lines, "---" ∉ linesOf line

theorem unbroken_cons {line : String} {lines : List String} :
    Unbroken (line :: lines) ↔ "---" ∉ linesOf line ∧ Unbroken lines := List.forall_mem_cons

theorem unbroken_append {lines others : List String} :
    Unbroken (lines ++ others) ↔ Unbroken lines ∧ Unbroken others := List.forall_mem_append

theorem unbroken_flatMap {α : Type} {lines : α → List String} {items : List α} :
    Unbroken (items.flatMap lines) ↔ ∀ item ∈ items, Unbroken (lines item) := by
  simp only [Unbroken, List.mem_flatMap, forall_exists_index, and_imp]
  exact ⟨fun h item hitem line hline => h line item hitem hline,
    fun h line item hitem hline => h item hitem line hline⟩

theorem unbroken_map {α : Type} {line : α → String} {items : List α} :
    Unbroken (items.map line) ↔ ∀ item ∈ items, "---" ∉ linesOf (line item) :=
  List.forall_mem_map

/-- Fixed lines, none of them a break. -/
theorem unbroken_of_forall_mem {lines : List String}
    (h : ∀ line ∈ lines, '\n' ∉ line.toList ∧ line ≠ "---") : Unbroken lines :=
  fun line hline => break_notMem_of_notMem (h line hline).1 (h line hline).2

/-- A table in which no text has a line feed has lines that start with a pipe. -/
theorem unbroken_table {header : List String} {rows : List (List String)}
    (h : Table.Intact header rows) : Unbroken (Table.lines header rows) := by
  intro line hline hbreak
  have hmem : "---" ∈ linesOf (joinLines (Table.lines header rows)) := by
    rw [Table.linesOf_lines]
    exact List.mem_flatMap.mpr ⟨line, hline, hbreak⟩
  exact absurd (h.isRow _ hmem).starts (by decide)

/-- Fixed lines in front of others, and behind others. -/
theorem unbroken_append_left_iff {fixed lines : List String}
    (h : ∀ line ∈ fixed, '\n' ∉ line.toList ∧ line ≠ "---") :
    Unbroken (fixed ++ lines) ↔ Unbroken lines := by
  rw [unbroken_append]
  exact and_iff_right (unbroken_of_forall_mem h)

theorem unbroken_append_right_iff {fixed lines : List String}
    (h : ∀ line ∈ fixed, '\n' ∉ line.toList ∧ line ≠ "---") :
    Unbroken (lines ++ fixed) ↔ Unbroken lines := by
  rw [unbroken_append]
  exact and_iff_left (unbroken_of_forall_mem h)

/-- A heading, with a line that stands there if nothing follows. -/
theorem unbroken_heading {heading notice : List String} {p : Prop} [Decidable p]
    (h : ∀ line ∈ heading ++ notice, '\n' ∉ line.toList ∧ line ≠ "---") :
    Unbroken (heading ++ if p then notice else []) := by
  obtain ⟨hheading, hnotice⟩ := unbroken_append.mp (unbroken_of_forall_mem h)
  refine unbroken_append.mpr ⟨hheading, ?_⟩
  split_ifs
  · exact hnotice
  · exact List.forall_mem_nil _

/-- A table that may be left out. -/
theorem unbroken_table_or_nothing {header : List String} {rows : List (List String)} {p : Prop}
    [Decidable p] (h : Table.Intact header rows) :
    Unbroken (if p then [] else Table.lines header rows ++ [""]) := by
  split_ifs
  · exact List.forall_mem_nil _
  · exact (unbroken_append_right_iff (by decide)).mpr (unbroken_table h)

end DocSchema
