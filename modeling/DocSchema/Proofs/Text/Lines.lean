import DocSchema.Text.Lines
import Mathlib.Data.List.Basic

/-!
# Reading lines back

A text is put together from lines by `unlines` and taken apart again at its line feeds. What comes
out are the lines that went in, unless one of them held a line feed of its own.

The reason is a count: there is one part more than there are marks, so a line feed inside a line is
a part too many. This is why the exact condition for the *number* of parts is already the exact
condition for the parts.

## Main definitions

* `linesOf`: the parts of a text between its line feeds, as texts

## Main results

* `linesOf_unlines`: lines without line feeds are read back
* `length_linesOf_unlines_eq_iff`: nothing else gives that many lines
-/

namespace DocSchema.Text

/-- The parts of a text between its line feeds. A text that ends in a line feed has an empty last
part. -/
def linesOf (s : String) : List String := (splitLines s.toList).map String.ofList

/-! ## Texts without a character -/

theorem notMem_toList_append {c : Char} {a b : String} :
    c ∉ (a ++ b).toList ↔ c ∉ a.toList ∧ c ∉ b.toList := by
  rw [String.toList_append, List.mem_append, not_or]

/-- A character that stands neither in the parts nor between them is not in the whole. -/
theorem notMem_toList_intercalate {c : Char} {separator : String} (h : c ∉ separator.toList) :
    ∀ {parts : List String}, (∀ part ∈ parts, c ∉ part.toList) →
      c ∉ (separator.intercalate parts).toList
  | [], _ => by simp
  | [part], hparts => by
    rw [String.intercalate_singleton]
    exact hparts part List.mem_cons_self
  | part :: next :: parts, hparts => by
    rw [String.intercalate_cons_cons, notMem_toList_append, notMem_toList_append]
    exact ⟨⟨hparts part List.mem_cons_self, h⟩,
      notMem_toList_intercalate h fun other hother => hparts other (List.mem_cons_of_mem _ hother)⟩

/-! ## Counting -/

theorem length_splitAt (mark : Char) (cs : List Char) :
    (splitAt mark cs).length = cs.count mark + 1 := by
  induction cs with
  | nil => rfl
  | cons c rest ih =>
    by_cases hc : c = mark
    · simp [splitAt, hc, ih]
    · obtain ⟨part, parts, hsplit⟩ := List.exists_cons_of_ne_nil (splitAt_ne_nil mark rest)
      rw [hsplit] at ih
      simp [splitAt, hc, hsplit, ← ih]

theorem toList_unlines (lines : List String) :
    (unlines lines).toList = lines.flatMap fun line => line.toList ++ ['\n'] := by
  simp [unlines, String.toList_join, List.flatMap_map]

theorem length_linesOf_unlines (lines : List String) :
    (linesOf (unlines lines)).length =
      lines.length + (lines.flatMap String.toList).count '\n' + 1 := by
  rw [linesOf, List.length_map, splitLines, length_splitAt, toList_unlines]
  congr 1
  induction lines with
  | nil => rfl
  | cons line lines ih =>
    simp only [List.flatMap_cons, List.count_append, ih, List.length_cons,
      List.count_singleton_self]
    omega

/-- There is one line more than went in exactly when no line held a line feed. -/
theorem length_linesOf_unlines_eq_iff {lines : List String} :
    (linesOf (unlines lines)).length = lines.length + 1 ↔ ∀ line ∈ lines, '\n' ∉ line.toList := by
  have hzero : (lines.flatMap String.toList).count '\n' = 0 ↔
      ∀ line ∈ lines, '\n' ∉ line.toList := by
    simp [List.count_eq_zero]
  rw [length_linesOf_unlines, ← hzero]
  omega

/-! ## Reading back -/

theorem splitLines_unlines {lines : List String} (h : ∀ line ∈ lines, '\n' ∉ line.toList) :
    splitLines (unlines lines).toList = lines.map String.toList ++ [[]] := by
  rw [toList_unlines, splitLines]
  induction lines with
  | nil => rfl
  | cons line lines ih =>
    have hline := h line List.mem_cons_self
    have hrest := ih fun other hother => h other (List.mem_cons_of_mem _ hother)
    rw [List.flatMap_cons, List.append_assoc, List.singleton_append, splitAt_append hline, hrest]
    rfl

/-- Lines without line feeds are read back, with an empty part behind the last one. -/
theorem linesOf_unlines {lines : List String} (h : ∀ line ∈ lines, '\n' ∉ line.toList) :
    linesOf (unlines lines) = lines ++ [""] := by
  rw [linesOf, splitLines_unlines h, List.map_append, List.map_map]
  simp [Function.comp_def]

/-! ## Several parts -/

theorem unlines_append (before after : List String) :
    unlines (before ++ after) = unlines before ++ unlines after := by
  rw [unlines, unlines, unlines, List.map_append, String.join_append]

/-- The text of lines that come in groups is made up of the texts of the groups. -/
theorem unlines_flatMap {α : Type} (lines : α → List String) (as : List α) :
    unlines (as.flatMap lines) = String.join (as.map fun a => unlines (lines a)) := by
  induction as with
  | nil => rfl
  | cons a as ih => rw [List.flatMap_cons, unlines_append, ih, List.map_cons, String.join_cons]

end DocSchema.Text
