import DocSchema.Proofs.Number.Nearest

/-!
# How accurate rounded quotients are

A quotient is first rounded to a magnitude of 53 bits, and the magnitude is then rounded to the
decimal places shown. The first rounding moves a quotient by a share of `2 ^ -53` at most, and it
does not move a quotient that has such a magnitude.

Two roundings can be worse than one: a quotient just beside the middle between two figures may be
moved into the middle, and from there to the wrong side. It cannot happen as long as the numerator
has no more than 53 bits and a step of the last place is an even number of steps of the numerator.
Multiplied by the divisor, the first rounding then moves the quotient by less than one, while the
numerator and the middles are integers: a numerator beside a middle is at least one away from it.

## Main results

* `Dyadic.abs_value_nearest_sub_le`, `Dyadic.value_nearest_of_eq_mul`: the first rounding
* `Dyadic.abs_mul_toFixed_nearest_sub_le`: both roundings, for a divisor that is a unit of the last
  place
* `Dyadic.abs_mul_toFixed_sub_le_of_value_eq`: both roundings, where the first one is exact
-/

namespace DocSchema.Number

theorem abs_roundDiv_sub_le (num : ℕ) {den : ℕ} (hden : 0 < den) :
    |(roundDiv num den : ℚ) - num / den| ≤ 1 / 2 := by
  have hpos : (0 : ℚ) < den := by exact_mod_cast hden
  have hhigh : (2 * (roundDiv num den * den) : ℚ) ≤ 2 * num + den := by
    exact_mod_cast two_mul_roundDiv_mul_le num hden
  have hlow : (2 * num : ℚ) ≤ 2 * (roundDiv num den * den) + den := by
    exact_mod_cast le_two_mul_roundDiv_mul num hden
  rw [sub_div' hpos.ne', abs_div, abs_of_pos hpos, div_le_iff₀ hpos, abs_le]
  constructor <;> linarith

namespace Dyadic

/-! ## The nearest magnitude -/

theorem abs_scaled_sub_le (num : ℕ) {den : ℕ} (hden : 0 < den) (exponent : ℤ) :
    |(scaled num den exponent : ℚ) - num / den / 2 ^ exponent| ≤ 1 / 2 := by
  obtain ⟨a, b, hb, hab, heq⟩ := exists_scaled num hden exponent
  rw [← hab, heq]
  exact abs_roundDiv_sub_le a hb

theorem value_nearest {num : ℕ} (hnum : 0 < num) (den : ℕ) :
    (nearest num den).value =
      scaled num den (exponentFor num den) * 2 ^ exponentFor num den := by
  rw [nearest, if_neg (Nat.ne_of_gt hnum)]
  generalize exponentFor num den = exponent
  dsimp only
  split_ifs with hfull
  · rw [value, hfull, zpow_add_one₀ two_ne_zero]
    norm_num
    ring
  · rfl

theorem value_nearest_zero (den : ℕ) : (nearest 0 den).value = 0 := by
  simp [nearest, value]

/-- The nearest magnitude of a quotient that is not too small is off by a share of `2 ^ -53` at
most. -/
theorem abs_value_nearest_sub_le {num den : ℕ} (hden : 0 < den)
    (hnormal : (2 : ℚ) ^ (leastExponent + 52) ≤ num / den) :
    |(nearest num den).value - num / den| ≤ num / den / 2 ^ 53 := by
  have hq : (0 : ℚ) < num / den := lt_of_lt_of_le (by positivity) hnormal
  have hnum : 0 < num := by
    rw [Nat.pos_iff_ne_zero]
    rintro rfl
    simp at hq
  have hlog : leastExponent + 52 ≤ Int.log 2 (num / den : ℚ) :=
    (Int.zpow_le_iff_le_log Nat.one_lt_two hq).mp (by rwa [Nat.cast_ofNat])
  have hexponent : exponentFor num den = Int.log 2 (num / den : ℚ) - 52 := by
    rw [exponentFor_eq hnum hden, max_eq_left (by omega)]
  have hscaled := abs_scaled_sub_le num hden (exponentFor num den)
  rw [value_nearest hnum]
  generalize exponentFor num den = exponent at *
  have hunit : (2 : ℚ) ^ exponent * 2 ^ 52 ≤ num / den := by
    have hle := (Int.zpow_le_iff_le_log (x := exponent + 52) Nat.one_lt_two hq).mpr (by omega)
    rwa [Nat.cast_ofNat, zpow_add₀ two_ne_zero] at hle
  have hpos : (0 : ℚ) < 2 ^ exponent := by positivity
  calc |(scaled num den exponent : ℚ) * 2 ^ exponent - num / den|
      = |(scaled num den exponent : ℚ) - num / den / 2 ^ exponent| * 2 ^ exponent := by
        rw [← abs_of_pos hpos, ← abs_mul, abs_of_pos hpos, sub_mul, div_mul_cancel₀ _ hpos.ne']
    _ ≤ 1 / 2 * 2 ^ exponent := by gcongr
    _ ≤ num / den / 2 ^ 53 := by
        rw [le_div_iff₀ (by positivity)]
        linarith

/-- This holds for every numerator, unless the divisor is huge. -/
theorem abs_value_nearest_sub_le_of_le (num : ℕ) {den : ℕ} (hpos : 0 < den) (hle : den ≤ 2 ^ 53) :
    |(nearest num den).value - num / den| ≤ num / den / 2 ^ 53 := by
  obtain rfl | hnum := Nat.eq_zero_or_pos num
  · simp [value_nearest_zero]
  · refine abs_value_nearest_sub_le hpos ?_
    have hone : (1 : ℚ) ≤ num := by exact_mod_cast hnum
    have hbound : (den : ℚ) ≤ 2 ^ 53 := by exact_mod_cast hle
    have hdenPos : (0 : ℚ) < den := by exact_mod_cast hpos
    calc (2 : ℚ) ^ (leastExponent + 52) ≤ 2 ^ (-53 : ℤ) :=
          zpow_le_zpow_right₀ one_le_two (by decide)
      _ = 1 / 2 ^ 53 := by rw [zpow_neg, one_div]; rfl
      _ ≤ num / den := by gcongr

/-- The nearest magnitude of a quotient that has at most 53 bits is the quotient. -/
theorem value_nearest_of_eq_mul {num den r : ℕ} (hnum : 0 < num) (hden : 0 < den) {exponent : ℤ}
    (hr : r < 2 ^ 53) (hleast : leastExponent ≤ exponent)
    (h : (num / den : ℚ) = r * 2 ^ exponent) : (nearest num den).value = num / den := by
  have hq : (0 : ℚ) < num / den := by positivity
  have hlog : Int.log 2 (num / den : ℚ) < 53 + exponent := by
    refine log_lt_of_div_lt hq ?_
    rw [h, mul_div_cancel_right₀ _ (by positivity)]
    exact_mod_cast hr
  -- The unit of the last bit divides the quotient, so that nothing is rounded off.
  have hle : exponentFor num den ≤ exponent := by
    rw [exponentFor_eq hnum hden]
    omega
  obtain ⟨k, hk⟩ := Int.le.dest hle
  have hunits : (num / den : ℚ) / 2 ^ exponentFor num den = (r * 2 ^ k : ℕ) := by
    rw [h, ← hk, zpow_add₀ two_ne_zero, zpow_natCast]
    push_cast
    field_simp
  have hscaled : scaled num den (exponentFor num den) = r * 2 ^ k := by
    refine scaled_eq_of_near hden ?_
    rw [hunits, sub_self, abs_zero]
    norm_num
  rw [value_nearest hnum, hscaled, ← hunits, div_mul_cancel₀ _ (by positivity)]

/-! ## Decimal places -/

theorem abs_toFixed_sub_le (d : Dyadic) (places : ℕ) :
    |(d.toFixed places : ℚ) - d.value * 10 ^ places| ≤ 1 / 2 := by
  obtain ⟨hpos, hvalue⟩ := d.ratio_value
  have hround := abs_roundDiv_sub_le (d.ratio.1 * 10 ^ places) hpos
  rw [Nat.cast_mul, mul_div_right_comm, hvalue] at hround
  exact_mod_cast hround

/-- The places are off by half a unit, and by what the magnitude is off. -/
theorem abs_toFixed_sub_mul_le (d : Dyadic) (places : ℕ) (q : ℚ) :
    |(d.toFixed places : ℚ) - q * 10 ^ places| ≤ 1 / 2 + |d.value - q| * 10 ^ places := by
  have hround := d.abs_toFixed_sub_le places
  have hscale : |d.value * 10 ^ places - q * 10 ^ places| = |d.value - q| * 10 ^ places := by
    rw [← sub_mul, abs_mul, abs_of_pos (by positivity : (0 : ℚ) < 10 ^ places)]
  calc |(d.toFixed places : ℚ) - q * 10 ^ places|
      ≤ |(d.toFixed places : ℚ) - d.value * 10 ^ places|
        + |d.value * 10 ^ places - q * 10 ^ places| := abs_sub_le _ _ _
    _ ≤ 1 / 2 + |d.value - q| * 10 ^ places := by linarith

/-- **A figure in a unit of its last place** is off by half the unit at most, also after two
roundings. -/
theorem abs_mul_toFixed_nearest_sub_le {num den : ℕ} (unit places : ℕ) (hunit : Even unit)
    (hden : den = unit * 10 ^ places) (hpos : 0 < den) (hle : den ≤ 2 ^ 53)
    (hnum : num < 2 ^ 53) :
    2 * |(unit * (nearest num den).toFixed places : ℤ) - num| ≤ unit := by
  have hdenPos : (0 : ℚ) < den := by exact_mod_cast hpos
  have hsplit : (unit : ℚ) * 10 ^ places = den := by exact_mod_cast hden.symm
  have hnumLt : (num : ℚ) < 2 ^ 53 := by exact_mod_cast hnum
  have hvalue := abs_value_nearest_sub_le_of_le num hpos hle
  have hfixed := (nearest num den).abs_toFixed_sub_mul_le places (num / den)
  generalize (nearest num den).value = v at *
  generalize (nearest num den).toFixed places = figure at *
  have hoff : den * |v - num / den| < 1 := by
    calc den * |v - num / den| ≤ den * (num / den / 2 ^ 53) := by gcongr
      _ = num / 2 ^ 53 := by field_simp
      _ < 1 := by rwa [div_lt_one (by positivity)]
  have hclose : 2 * |(unit * figure : ℚ) - num| < unit + 2 := by
    calc 2 * |(unit * figure : ℚ) - num|
        = 2 * |(unit * (figure - num / den * 10 ^ places) : ℚ)| := by
          congr 2
          rw [mul_sub, mul_left_comm, hsplit, div_mul_cancel₀ _ hdenPos.ne']
      _ = 2 * (unit * |(figure - num / den * 10 ^ places : ℚ)|) := by
          rw [abs_mul, Nat.abs_cast]
      _ ≤ 2 * (unit * (1 / 2 + |v - num / den| * 10 ^ places)) := by gcongr
      _ = unit + 2 * (den * |v - num / den|) := by
          rw [← hsplit]
          ring
      _ < unit + 2 := by linarith
  have hint : 2 * |(unit * figure : ℤ) - num| < unit + 2 := by exact_mod_cast hclose
  -- The unit is even, so that no integer lies between the bound and the next one.
  obtain ⟨half, rfl⟩ := hunit
  omega

/-- A figure in any unit, where the nearest magnitude is the quotient. -/
theorem abs_mul_toFixed_sub_le_of_value_eq {num den : ℕ} (places : ℕ) (hpos : 0 < den)
    (h : (nearest num den).value = num / den) :
    2 * |(den * (nearest num den).toFixed places : ℤ) - num * 10 ^ places| ≤ den := by
  have hdenPos : (0 : ℚ) < den := by exact_mod_cast hpos
  have hfixed := (nearest num den).abs_toFixed_sub_le places
  rw [h] at hfixed
  generalize (nearest num den).toFixed places = figure at *
  have hclose : 2 * |(den * figure : ℚ) - num * 10 ^ places| ≤ den := by
    calc 2 * |(den * figure : ℚ) - num * 10 ^ places|
        = 2 * |(den * (figure - num / den * 10 ^ places) : ℚ)| := by
          congr 2
          rw [mul_sub, ← mul_assoc, mul_div_cancel₀ _ hdenPos.ne']
      _ = 2 * (den * |(figure - num / den * 10 ^ places : ℚ)|) := by
          rw [abs_mul, Nat.abs_cast]
      _ ≤ 2 * (den * (1 / 2)) := by gcongr
      _ = den := by ring
  exact_mod_cast hclose

end Dyadic

end DocSchema.Number
