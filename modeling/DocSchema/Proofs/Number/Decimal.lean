import DocSchema.Number.Decimal
import Mathlib.Data.List.Basic

/-!
# Decimals of numbers other than zero

The digits with which a magnitude is written are chosen by reading candidates back. Zero reads back
as zero only, so it is never chosen for another magnitude, and dropping zeros at the end does not
lead to it either.

## Main results

* `Decimal.digits_shortest_ne_zero`
-/

namespace DocSchema.Number.Decimal

theorem digits_trimZeros_ne_zero (fuel : Nat) {d : Decimal} (h : d.digits ≠ 0) :
    (trimZeros fuel d).digits ≠ 0 := by
  induction fuel generalizing d with
  | zero => exact h
  | succ fuel ih =>
    rw [trimZeros]
    split_ifs with hzero
    · exact ih (by dsimp only; omega)
    · exact h

/-- Zero reads back as zero. -/
theorem mantissa_eq_zero_of_ofDecimal_zero {exponent : Int} {m : Dyadic}
    (h : Binary64.ofDecimal false 0 exponent = .finite false m) : m.mantissa = 0 := by
  have hzero : Binary64.ofDecimal false 0 exponent = .finite false ⟨0, Dyadic.leastExponent⟩ := rfl
  rw [hzero] at h
  cases h
  rfl

theorem le_roundDiv (num den : Nat) : num / den ≤ roundDiv num den := by
  simp only [roundDiv]
  split_ifs <;> omega

theorem digits_readingBack?_ne_zero {m : Dyadic} (hm : m.mantissa ≠ 0) {count : Nat} {d : Decimal}
    (h : readingBack? m count = some d) : d.digits ≠ 0 := by
  simp only [readingBack?] at h
  generalize leadingPlace m.ratio.1 m.ratio.2 - (count : Int) = exponent at h
  generalize onGrid m.ratio.1 m.ratio.2 exponent = grid at h
  have hbelow : (Binary64.ofDecimal false (grid.1 / grid.2) exponent == .finite false m) = true →
      grid.1 / grid.2 ≠ 0 := by
    intro hread hzero
    rw [hzero, beq_iff_eq] at hread
    exact hm (mantissa_eq_zero_of_ofDecimal_zero hread)
  split at h
  · rename_i hread _
    cases h
    exact Nat.ne_of_gt (Nat.lt_of_lt_of_le (Nat.pos_of_ne_zero (hbelow hread))
      (le_roundDiv grid.1 grid.2))
  · rename_i hread _
    cases h
    exact hbelow hread
  · cases h
    exact Nat.succ_ne_zero _
  · cases h

/-- The digits that a magnitude other than zero is written with are not zero. -/
theorem digits_shortest_ne_zero {m : Dyadic} (hm : m.mantissa ≠ 0) : (shortest m).digits ≠ 0 := by
  rw [shortest]
  split
  · rename_i d hd
    obtain ⟨i, -, hi⟩ := List.exists_of_findSome?_eq_some hd
    exact digits_trimZeros_ne_zero 20 (digits_readingBack?_ne_zero hm hi)
  · exact hm

end DocSchema.Number.Decimal
