/-!
# Ranges of code points

A property of characters is stored as the list of the code point ranges that have it. Both ends
of a range belong to it.
-/

namespace DocSchema.Text

/-- Whether some range of the list holds the code point `n`. -/
def inRanges (ranges : List (Nat × Nat)) (n : Nat) : Bool :=
  ranges.any fun range => decide (range.1 ≤ n) && decide (n ≤ range.2)

theorem inRanges_iff {ranges : List (Nat × Nat)} {n : Nat} :
    inRanges ranges n = true ↔ ∃ range ∈ ranges, range.1 ≤ n ∧ n ≤ range.2 := by
  simp [inRanges]

end DocSchema.Text
