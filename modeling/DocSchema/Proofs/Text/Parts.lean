import DocSchema.Proofs.Text.Lines
import DocSchema.Report.Markdown

/-!
# Finding lines in a text

A text that is put together with line feeds between its parts has the lines of the parts, one after
the other, and a line of it may be part of what was put in. Whether a text has a given line can be
seen without taking it apart: with a line feed on either side of it, the line is somewhere in the
text with a line feed on either side of that.

## Main results

* `linesOf_joinLines`: the lines of lines that are joined
* `mem_splitAt_iff`: what the parts of a text are
* `infix_append_cons_iff`: what has no part in a mark is on one side of it
-/

namespace DocSchema.Text

/-! ## Texts put together -/

theorem splitAt_append_mark (mark : Char) (a b : List Char) :
    splitAt mark (a ++ mark :: b) = splitAt mark a ++ splitAt mark b := by
  induction a with
  | nil => simp [splitAt]
  | cons c a ih =>
    by_cases hc : c = mark
    · simp [splitAt, hc, ih]
    · obtain ⟨part, parts, hsplit⟩ := List.exists_cons_of_ne_nil (splitAt_ne_nil mark a)
      simp [splitAt, hc, ih, hsplit]

theorem linesOf_append (a b : String) : linesOf (a ++ "\n" ++ b) = linesOf a ++ linesOf b := by
  have hchars : (a ++ "\n" ++ b).toList = a.toList ++ '\n' :: b.toList := by simp
  rw [linesOf, splitLines, hchars, splitAt_append_mark, List.map_append]
  rfl

theorem linesOf_of_notMem {s : String} (h : '\n' ∉ s.toList) : linesOf s = [s] := by
  rw [linesOf, splitLines, splitAt_of_not_mem h, List.map_singleton, String.ofList_toList]

/-- The lines of a text that is joined of lines, each of which may be several. -/
theorem linesOf_joinLines {lines : List String} (h : lines ≠ []) :
    linesOf (joinLines lines) = lines.flatMap linesOf := by
  induction lines with
  | nil => exact absurd rfl h
  | cons line rest ih =>
    cases rest with
    | nil => rw [joinLines, String.intercalate_singleton, List.flatMap_singleton]
    | cons next rest =>
      rw [joinLines, String.intercalate_cons_cons, linesOf_append, List.flatMap_cons,
        ← ih (List.cons_ne_nil _ _), joinLines]

theorem flatMap_linesOf_of_notMem {lines : List String} (h : ∀ line ∈ lines, '\n' ∉ line.toList) :
    lines.flatMap linesOf = lines := by
  induction lines with
  | nil => rfl
  | cons line lines ih =>
    rw [List.forall_mem_cons] at h
    rw [List.flatMap_cons, linesOf_of_notMem h.1, ih h.2, List.singleton_append]

/-! ## Parts between marks -/

theorem notMem_of_mem_splitAt {mark : Char} {part cs : List Char} (h : part ∈ splitAt mark cs) :
    mark ∉ part := by
  induction cs generalizing part with
  | nil =>
    rw [splitAt, List.mem_singleton] at h
    rw [h]
    exact List.not_mem_nil
  | cons c cs ih =>
    rw [splitAt] at h
    split_ifs at h with hc
    · rcases List.mem_cons.mp h with rfl | h
      · exact List.not_mem_nil
      · exact ih h
    · obtain ⟨first, parts, hsplit⟩ := List.exists_cons_of_ne_nil (splitAt_ne_nil mark cs)
      rw [hsplit] at h ih
      rcases List.mem_cons.mp h with rfl | h
      · rw [List.mem_cons, not_or]
        exact ⟨Ne.symm hc, ih List.mem_cons_self⟩
      · exact ih (List.mem_cons_of_mem _ h)

/-- The parts with a mark behind each are the text with a mark behind it. -/
theorem flatMap_splitAt (mark : Char) (cs : List Char) :
    (splitAt mark cs).flatMap (fun part => part ++ [mark]) = cs ++ [mark] := by
  induction cs with
  | nil => rfl
  | cons c cs ih =>
    rw [splitAt]
    split_ifs with hc
    · rw [List.flatMap_cons, ih, hc]
      rfl
    · obtain ⟨first, parts, hsplit⟩ := List.exists_cons_of_ne_nil (splitAt_ne_nil mark cs)
      rw [hsplit] at ih ⊢
      rw [List.flatMap_cons] at ih ⊢
      rw [List.cons_append, List.cons_append, List.cons_append, ih]

/-- A mark in front of parts that have one behind each: the last mark is behind all of them. -/
theorem exists_cons_flatMap_eq (mark : Char) (parts : List (List Char)) :
    ∃ front, mark :: parts.flatMap (fun part => part ++ [mark]) = front ++ [mark] := by
  induction parts with
  | nil => exact ⟨[], rfl⟩
  | cons part parts ih =>
    obtain ⟨front, hfront⟩ := ih
    refine ⟨mark :: (part ++ front), ?_⟩
    rw [List.flatMap_cons, List.append_assoc, List.singleton_append, hfront, List.cons_append,
      List.append_assoc]

/-- The parts of a text are what stands between two marks next to each other, where the text has a
mark on either side. -/
theorem mem_splitAt_iff {mark : Char} {part cs : List Char} :
    part ∈ splitAt mark cs ↔
      mark ∉ part ∧ (mark :: (part ++ [mark])) <:+: (mark :: (cs ++ [mark])) := by
  refine ⟨fun h => ⟨notMem_of_mem_splitAt h, ?_⟩, fun ⟨hpart, before, after, h⟩ => ?_⟩
  · obtain ⟨parts, others, hsplit⟩ := List.append_of_mem h
    obtain ⟨front, hfront⟩ := exists_cons_flatMap_eq mark parts
    have hcs := flatMap_splitAt mark cs
    rw [hsplit, List.flatMap_append, List.flatMap_cons] at hcs
    refine ⟨front, others.flatMap fun part => part ++ [mark], ?_⟩
    rw [← hcs]
    show _ = (mark :: parts.flatMap fun part => part ++ [mark]) ++ _
    rw [hfront]
    simp
  · -- Both sides are taken apart. The part is neither the first nor the last one.
    have htext : splitAt mark (mark :: (cs ++ [mark])) = [[]] ++ splitAt mark cs ++ [[]] := by
      rw [← List.nil_append (mark :: (cs ++ [mark])), splitAt_append_mark, splitAt_append_mark,
        List.append_assoc]
      rfl
    rw [← h, List.append_assoc, List.cons_append, List.append_assoc, List.singleton_append,
      splitAt_append_mark, splitAt_append hpart] at htext
    obtain ⟨first, parts, hfirst⟩ := List.exists_cons_of_ne_nil (splitAt_ne_nil mark before)
    obtain ⟨others, last, hlast⟩ :=
      List.eq_nil_or_concat (splitAt mark after) |>.resolve_left (splitAt_ne_nil mark after)
    rw [hfirst, hlast, List.cons_append, List.cons_append, List.cons_append, List.nil_append,
      List.cons.injEq] at htext
    have hends : (parts ++ part :: others) ++ [last] = splitAt mark cs ++ [[]] := by
      rw [List.append_assoc, List.cons_append, ← List.concat_eq_append]
      exact htext.2
    rw [← List.append_inj_left' hends rfl]
    exact List.mem_append_right _ List.mem_cons_self

/-! ## Texts around a mark -/

variable {c : Char} {part : List Char}

theorem prefix_append_cons_iff (hc : c ∉ part) {a b : List Char} :
    part <+: a ++ c :: b ↔ part <+: a := by
  induction part generalizing a with
  | nil => simp
  | cons d part ih =>
    rw [List.mem_cons, not_or] at hc
    cases a with
    | nil => simp [Ne.symm hc.1]
    | cons e a => rw [List.cons_append, List.cons_prefix_cons, List.cons_prefix_cons, ih hc.2]

/-- A text that is somewhere in another one, where the other one has a mark that it does not have
itself, is on one side of the mark. -/
theorem infix_append_cons_iff (hc : c ∉ part) {a b : List Char} :
    part <:+: a ++ c :: b ↔ part <:+: a ∨ part <:+: b := by
  induction a with
  | nil =>
    rw [List.nil_append, List.infix_cons_iff, ← List.nil_append (c :: b),
      prefix_append_cons_iff hc, List.prefix_nil, List.infix_nil]
  | cons d a ih =>
    rw [List.cons_append, List.infix_cons_iff, List.infix_cons_iff, ih, ← List.cons_append,
      prefix_append_cons_iff hc, or_assoc]

end DocSchema.Text
