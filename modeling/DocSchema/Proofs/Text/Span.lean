import Mathlib.Data.List.Basic
import Mathlib.Data.List.TakeWhile

/-!
# Spans of characters

A text starts with a span of characters of a kind, behind which something else comes.

## Main results

* `exists_span`, `exists_run`: every text has such a start
* `takeWhile_span`, `dropWhile_span`: which is what taking and dropping find
-/

namespace DocSchema.Text

variable {kind : Char → Bool} {front back : List Char}

theorem takeWhile_span (hfront : ∀ c ∈ front, kind c = true)
    (hback : ∀ c ∈ back.head?, kind c = false) : (front ++ back).takeWhile kind = front := by
  rw [List.takeWhile_append_of_pos hfront]
  cases back with
  | nil => rw [List.takeWhile_nil, List.append_nil]
  | cons c back =>
    have hc : kind c = false := hback c rfl
    rw [List.takeWhile_cons_of_neg (by rw [hc]; exact Bool.false_ne_true), List.append_nil]

theorem dropWhile_span (hfront : ∀ c ∈ front, kind c = true)
    (hback : ∀ c ∈ back.head?, kind c = false) : (front ++ back).dropWhile kind = back := by
  rw [List.dropWhile_append_of_pos hfront]
  cases back with
  | nil => rfl
  | cons c back =>
    have hc : kind c = false := hback c rfl
    rw [List.dropWhile_cons_of_neg (by rw [hc]; exact Bool.false_ne_true)]

theorem exists_span (kind : Char → Bool) (cs : List Char) :
    ∃ front back, cs = front ++ back ∧ (∀ c ∈ front, kind c = true) ∧
      ∀ c ∈ back.head?, kind c = false := by
  refine ⟨_, _, (List.takeWhile_append_dropWhile (p := kind) (l := cs)).symm,
    fun c hc => List.mem_takeWhile_imp hc, fun c hc => ?_⟩
  have hnot := List.head?_dropWhile_not kind cs
  rw [Option.mem_def.mp hc] at hnot
  simpa using hnot

/-- A run of one character. -/
theorem exists_run (d : Char) (cs : List Char) :
    ∃ k back, cs = List.replicate k d ++ back ∧ ∀ c ∈ back.head?, c ≠ d := by
  obtain ⟨front, back, rfl, hfront, hback⟩ := exists_span (· == d) cs
  refine ⟨front.length, back, ?_, fun c hc => beq_eq_false_iff_ne.mp (hback c hc)⟩
  rw [← List.eq_replicate_iff.mpr ⟨rfl, fun c hc => beq_iff_eq.mp (hfront c hc)⟩]

/-- Where a run of one character ends. -/
theorem takeWhile_run {d : Char} (k : Nat) (hback : ∀ c ∈ back.head?, c ≠ d) :
    (List.replicate k d ++ back).takeWhile (· == d) = List.replicate k d ∧
      (List.replicate k d ++ back).dropWhile (· == d) = back := by
  have hall : ∀ c ∈ List.replicate k d, (c == d) = true := fun c hc =>
    beq_iff_eq.mpr (List.eq_of_mem_replicate hc)
  have hnone : ∀ c ∈ back.head?, (c == d) = false := fun c hc => beq_eq_false_iff_ne.mpr (hback c hc)
  exact ⟨takeWhile_span hall hnone, dropWhile_span hall hnone⟩

end DocSchema.Text
