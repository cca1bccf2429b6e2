/-!
# Rounding quotients

`roundDiv num den` is the integer nearest to `num / den`; a quotient half way between two integers
goes to the even one. Every rounded figure of this library comes from it: binary fractions,
decimals with a fixed number of places and decimals with a fixed number of digits.

## Main results

* `two_mul_roundDiv_mul_le` and `le_two_mul_roundDiv_mul`: the result lies within half a unit
-/

namespace DocSchema.Number

/-- The integer nearest to a quotient, with ties to the even neighbour. -/
def roundDiv (num den : Nat) : Nat :=
  let below := num / den
  let rest := num % den
  if 2 * rest < den then below
  else if den < 2 * rest then below + 1
  else if below % 2 = 0 then below
  else below + 1

/-- The rounded quotient is at most half a unit too large. -/
theorem two_mul_roundDiv_mul_le (num : Nat) {den : Nat} (_h : 0 < den) :
    2 * (roundDiv num den * den) ≤ 2 * num + den := by
  have hsplit := Nat.div_add_mod num den
  rw [Nat.mul_comm] at hsplit
  simp only [roundDiv]
  split
  · omega
  · split
    · rw [Nat.add_mul]; omega
    · split
      · omega
      · rw [Nat.add_mul]; omega

/-- The rounded quotient is at most half a unit too small. -/
theorem le_two_mul_roundDiv_mul (num : Nat) {den : Nat} (h : 0 < den) :
    2 * num ≤ 2 * (roundDiv num den * den) + den := by
  have hsplit := Nat.div_add_mod num den
  rw [Nat.mul_comm] at hsplit
  have hlt := Nat.mod_lt num h
  simp only [roundDiv]
  split
  · omega
  · split
    · rw [Nat.add_mul]; omega
    · split
      · omega
      · rw [Nat.add_mul]; omega

end DocSchema.Number
