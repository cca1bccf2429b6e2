import DocSchema.Text.Blank
import Mathlib.Data.List.TakeWhile

/-!
# Blank and trimmed texts

Being blank and being trimmed are defined apart: one asks every character, the other takes
characters off the ends. They meet where nothing is left. Trimming takes off blank characters only,
so a text that is trimmed to nothing had no others.

## Main definitions

* `IsTrimmed`: no end of a text is blank

## Main results

* `strip_eq_empty_iff`
* `isTrimmed_strip`
-/

namespace DocSchema.Text

/-- A text with nothing left when it is trimmed is one without any other character. -/
theorem strip_eq_empty_iff (s : String) : strip s = "" ↔ isBlank s = true := by
  rw [strip, String.ofList_eq_empty_iff, stripChars, isBlank, List.reverse_eq_nil_iff,
    List.dropWhile_eq_nil_iff, List.all_eq_true]
  constructor
  · intro h c hc
    rw [← List.takeWhile_append_dropWhile (p := isBlankChar) (l := s.toList)] at hc
    rcases List.mem_append.mp hc with hc | hc
    · exact List.all_eq_true.mp List.all_takeWhile c hc
    · exact h c (List.mem_reverse.mpr hc)
  · intro h c hc
    exact h c ((List.dropWhile_sublist _).subset (List.mem_reverse.mp hc))

/-- A text does not start or end with a blank character. -/
def IsTrimmed (s : String) : Prop :=
  (∀ c ∈ s.toList.head?, isBlankChar c = false) ∧ ∀ c ∈ s.toList.getLast?, isBlankChar c = false

theorem isBlankChar_of_head?_dropWhile {cs : List Char} {c : Char}
    (h : c ∈ (cs.dropWhile isBlankChar).head?) : isBlankChar c = false := by
  have hnot := List.head?_dropWhile_not isBlankChar cs
  rw [Option.mem_def.mp h] at hnot
  exact hnot

/-- What is trimmed at its end is still trimmed at its start, for it is a start of the text before
that. -/
theorem isTrimmed_strip (s : String) : IsTrimmed (strip s) := by
  rw [IsTrimmed, strip, String.toList_ofList, stripChars]
  refine ⟨fun c hc => ?_, fun c hc => ?_⟩
  · obtain ⟨front, hfront⟩ := List.dropWhile_suffix (l := (s.toList.dropWhile isBlankChar).reverse)
      isBlankChar
    refine @isBlankChar_of_head?_dropWhile s.toList c ?_
    rw [← List.reverse_reverse (s.toList.dropWhile isBlankChar), ← hfront, List.reverse_append,
      List.head?_append, Option.mem_def.mp hc]
    rfl
  · rw [List.getLast?_reverse] at hc
    exact isBlankChar_of_head?_dropWhile hc

end DocSchema.Text
