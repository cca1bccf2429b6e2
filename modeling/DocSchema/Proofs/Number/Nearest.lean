import DocSchema.Number.Binary64
import Mathlib.Algebra.Order.Field.Power
import Mathlib.Data.Int.Log
import Mathlib.Data.Rat.Floor
import Mathlib.Tactic.FieldSimp
import Mathlib.Tactic.Linarith
import Mathlib.Tactic.Positivity
import Mathlib.Tactic.Ring

/-!
# The nearest magnitude

A quotient is rounded to the magnitude of at most 53 bits that is nearest to it. The magnitude
depends on the quotient alone, and it is a given one if the quotient is near enough: within half a
unit of the last bit, or a quarter of it below a power of two, where magnitudes lie closer.

## Main definitions

* `Dyadic.value`: the rational number that a magnitude stands for
* `Dyadic.Canonical`: a magnitude in lowest form
* `Dyadic.Near`: a rational number is near enough to a magnitude

## Main results

* `Dyadic.nearest_congr`, `Dyadic.nearest_eq_of_near`
-/

namespace DocSchema.Number

/-! ## Rounded quotients -/

theorem roundDiv_eq_of_near {num den r : ℕ} (hlow : 2 * (r * den) < 2 * num + den)
    (hhigh : 2 * num < 2 * (r * den) + den) : roundDiv num den = r := by
  have hden : 0 < den := by omega
  have hle := two_mul_roundDiv_mul_le num hden
  have hge := le_two_mul_roundDiv_mul num hden
  refine le_antisymm (Nat.le_of_lt_succ ?_) (Nat.le_of_lt_succ ?_)
  · refine Nat.lt_of_mul_lt_mul_right (a := den) ?_
    rw [Nat.succ_mul]
    omega
  · refine Nat.lt_of_mul_lt_mul_right (a := den) ?_
    rw [Nat.succ_mul]
    omega

theorem roundDiv_le_of_lt {num den k : ℕ} (h : num < k * den) : roundDiv num den ≤ k := by
  have hden : 0 < den := Nat.pos_of_mul_pos_left (Nat.zero_lt_of_lt h)
  have hle := two_mul_roundDiv_mul_le num hden
  refine Nat.le_of_lt_succ (Nat.lt_of_mul_lt_mul_right (a := den) ?_)
  rw [Nat.succ_mul]
  omega

theorem le_roundDiv_of_le {num den k : ℕ} (hden : 0 < den) (h : k * den ≤ num) :
    k ≤ roundDiv num den := by
  have hge := le_two_mul_roundDiv_mul num hden
  refine Nat.le_of_lt_succ (Nat.lt_of_mul_lt_mul_right (a := den) ?_)
  rw [Nat.succ_mul]
  omega

theorem roundDiv_mul_left {k : ℕ} (hk : 0 < k) (num den : ℕ) :
    roundDiv (k * num) (k * den) = roundDiv num den := by
  have hlt : ∀ a b, k * a < k * b ↔ a < b := fun a b => Nat.mul_lt_mul_left hk
  simp only [roundDiv, Nat.mul_div_mul_left _ _ hk, Nat.mul_mod_mul_left, Nat.mul_left_comm 2 k, hlt]

theorem roundDiv_congr {num den num' den' : ℕ} (hden : 0 < den) (hden' : 0 < den')
    (h : (num / den : ℚ) = num' / den') : roundDiv num den = roundDiv num' den' := by
  have hcross : den' * num = den * num' := by
    rw [div_eq_div_iff (by positivity) (by positivity)] at h
    exact_mod_cast (by linarith : (den' * num : ℚ) = den * num')
  calc roundDiv num den
      = roundDiv (den' * num) (den' * den) := (roundDiv_mul_left hden' num den).symm
    _ = roundDiv (den * num') (den * den') := by rw [hcross, Nat.mul_comm den' den]
    _ = roundDiv num' den' := roundDiv_mul_left hden num' den'

namespace Dyadic

/-! ## Values -/

/-- The rational number that a magnitude stands for. -/
def value (d : Dyadic) : ℚ := d.mantissa * 2 ^ d.exponent

/-- A magnitude in lowest form: the mantissa has 53 bits, or the exponent is the least one. -/
structure Canonical (d : Dyadic) : Prop where
  mantissa_lt : d.mantissa < 2 ^ 53
  least_le : leastExponent ≤ d.exponent
  le_greatest : d.exponent ≤ greatestExponent
  normal : 2 ^ 52 ≤ d.mantissa ∨ d.exponent = leastExponent

theorem ratio_value (d : Dyadic) :
    0 < d.ratio.2 ∧ (d.ratio.1 / d.ratio.2 : ℚ) = d.value := by
  rw [ratio, value]
  split_ifs with h
  · obtain ⟨n, hn⟩ := Int.eq_ofNat_of_zero_le h
    refine ⟨Nat.one_pos, ?_⟩
    simp [hn]
  · obtain ⟨n, hn⟩ := Int.eq_ofNat_of_zero_le (by omega : 0 ≤ -d.exponent)
    obtain hneg : d.exponent = -n := by omega
    refine ⟨Nat.pow_pos Nat.two_pos, ?_⟩
    simp [hneg, div_eq_mul_inv]

/-! ## Units of a power of two -/

/-- The quotient is rounded in units of the power. -/
theorem exists_scaled (num : ℕ) {den : ℕ} (hden : 0 < den) (exponent : ℤ) :
    ∃ a b : ℕ, 0 < b ∧ (a / b : ℚ) = num / den / 2 ^ exponent ∧
      scaled num den exponent = roundDiv a b := by
  rw [scaled]
  split_ifs with h
  · obtain ⟨n, rfl⟩ := Int.eq_ofNat_of_zero_le h
    refine ⟨num, den * 2 ^ n, by positivity, ?_, rfl⟩
    push_cast
    rw [zpow_natCast, div_div]
  · obtain ⟨n, hn⟩ := Int.eq_ofNat_of_zero_le (by omega : 0 ≤ -exponent)
    obtain rfl : exponent = -n := by omega
    refine ⟨num * 2 ^ n, den, hden, ?_, ?_⟩
    · push_cast
      rw [zpow_neg, zpow_natCast, div_inv_eq_mul, div_mul_eq_mul_div]
    · rw [neg_neg, Int.toNat_natCast]
      rfl

theorem scaled_congr {num den num' den' : ℕ} (hden : 0 < den) (hden' : 0 < den')
    (h : (num / den : ℚ) = num' / den') (exponent : ℤ) :
    scaled num den exponent = scaled num' den' exponent := by
  obtain ⟨a, b, hb, hab, heq⟩ := exists_scaled num hden exponent
  obtain ⟨a', b', hb', hab', heq'⟩ := exists_scaled num' hden' exponent
  rw [heq, heq', roundDiv_congr hb hb' (by rw [hab, hab', h])]

theorem scaled_eq_of_near {num den r : ℕ} (hden : 0 < den) {exponent : ℤ}
    (h : |(num / den : ℚ) / 2 ^ exponent - r| < 1 / 2) : scaled num den exponent = r := by
  obtain ⟨a, b, hb, hab, heq⟩ := exists_scaled num hden exponent
  rw [← hab, abs_lt] at h
  have hb' : (0 : ℚ) < b := by exact_mod_cast hb
  have hlow : (r - 1 / 2 : ℚ) * b < a := by
    rw [← lt_div_iff₀ hb']
    linarith [h.1]
  have hhigh : (a : ℚ) < (r + 1 / 2) * b := by
    rw [← div_lt_iff₀ hb']
    linarith [h.2]
  rw [heq]
  refine roundDiv_eq_of_near ?_ ?_
  · exact_mod_cast (by linarith : (2 * (r * b) : ℚ) < 2 * a + b)
  · exact_mod_cast (by linarith : (2 * a : ℚ) < 2 * (r * b) + b)

theorem scaled_le_of_lt {num den k : ℕ} (hden : 0 < den) {exponent : ℤ}
    (h : (num / den : ℚ) / 2 ^ exponent < k) : scaled num den exponent ≤ k := by
  obtain ⟨a, b, hb, hab, heq⟩ := exists_scaled num hden exponent
  rw [← hab, div_lt_iff₀ (by exact_mod_cast hb)] at h
  rw [heq]
  exact roundDiv_le_of_lt (by exact_mod_cast h)

theorem le_scaled_of_le {num den k : ℕ} (hden : 0 < den) {exponent : ℤ}
    (h : k ≤ (num / den : ℚ) / 2 ^ exponent) : k ≤ scaled num den exponent := by
  obtain ⟨a, b, hb, hab, heq⟩ := exists_scaled num hden exponent
  rw [← hab, le_div_iff₀ (by exact_mod_cast hb)] at h
  rw [heq]
  exact le_roundDiv_of_le hb (by exact_mod_cast h)

/-! ## The exponent -/

/-- The binary order of a quotient, up to one. -/
theorem log_div_bounds {num den : ℕ} (hnum : 0 < num) (hden : 0 < den) :
    (Nat.log2 num : ℤ) - Nat.log2 den - 1 ≤ Int.log 2 (num / den : ℚ) ∧
      Int.log 2 (num / den : ℚ) < (Nat.log2 num : ℤ) - Nat.log2 den + 1 := by
  have hnumLow : (2 : ℚ) ^ Nat.log2 num ≤ num := by
    exact_mod_cast Nat.log2_self_le (Nat.ne_of_gt hnum)
  have hnumHigh : (num : ℚ) < 2 ^ (Nat.log2 num + 1) := by
    exact_mod_cast Nat.lt_log2_self
  have hdenLow : (2 : ℚ) ^ Nat.log2 den ≤ den := by
    exact_mod_cast Nat.log2_self_le (Nat.ne_of_gt hden)
  have hdenHigh : (den : ℚ) < 2 ^ (Nat.log2 den + 1) := by
    exact_mod_cast Nat.lt_log2_self
  have hpos : (0 : ℚ) < den := by exact_mod_cast hden
  have hq : (0 : ℚ) < num / den := by positivity
  constructor
  · rw [← Int.zpow_le_iff_le_log Nat.one_lt_two hq, Nat.cast_ofNat, sub_sub,
      zpow_sub₀ two_ne_zero, div_le_div_iff₀ (by positivity) hpos, ← Nat.cast_succ, zpow_natCast,
      zpow_natCast]
    exact mul_le_mul hnumLow hdenHigh.le (by positivity) (by positivity)
  · rw [← Int.lt_zpow_iff_log_lt Nat.one_lt_two hq, Nat.cast_ofNat, sub_add_eq_add_sub,
      zpow_sub₀ two_ne_zero, div_lt_div_iff₀ hpos (by positivity), ← Nat.cast_succ, zpow_natCast,
      zpow_natCast]
    exact mul_lt_mul hnumHigh hdenLow (by positivity) (by positivity)

/-- A quotient is compared with a multiple of a power of two. -/
theorem lt_mul_pow_iff (num : ℕ) {den : ℕ} (hden : 0 < den) (bound : ℕ) (exponent : ℤ) :
    (if 0 ≤ exponent then num < bound * (den * Nat.pow 2 exponent.toNat)
      else num * Nat.pow 2 (-exponent).toNat < bound * den) ↔
      (num / den : ℚ) < bound * 2 ^ exponent := by
  have hpos : (0 : ℚ) < den := by exact_mod_cast hden
  rw [div_lt_iff₀ hpos]
  split_ifs with h
  · obtain ⟨n, rfl⟩ := Int.eq_ofNat_of_zero_le h
    have hright : (bound * 2 ^ (n : ℤ) * den : ℚ) = ((bound * (den * 2 ^ n) : ℕ) : ℚ) := by
      push_cast
      rw [zpow_natCast]
      ring
    rw [hright, Nat.cast_lt]
    rfl
  · obtain ⟨n, hn⟩ := Int.eq_ofNat_of_zero_le (by omega : 0 ≤ -exponent)
    obtain rfl : exponent = -n := by omega
    have hright : (bound * 2 ^ (-n : ℤ) * den : ℚ) = ((bound * den : ℕ) : ℚ) / 2 ^ n := by
      push_cast
      rw [zpow_neg, zpow_natCast]
      ring
    rw [hright, lt_div_iff₀ (by positivity), neg_neg, Int.toNat_natCast]
    exact_mod_cast Iff.rfl

/-- The exponent is the binary order of the quotient, so that 53 bits stand before the point. -/
theorem exponentFor_eq {num den : ℕ} (hnum : 0 < num) (hden : 0 < den) :
    exponentFor num den = max (Int.log 2 (num / den : ℚ) - 52) leastExponent := by
  have hq : (0 : ℚ) < num / den := by positivity
  obtain ⟨hlow, hhigh⟩ := log_div_bounds hnum hden
  rw [exponentFor]
  generalize hguess : (Nat.log2 num : ℤ) - (Nat.log2 den : ℤ) - 52 = guess
  have htest := lt_mul_pow_iff num hden (Nat.pow 2 52) guess
  have hbound : ((Nat.pow 2 52 : ℕ) : ℚ) * 2 ^ guess = ((2 : ℕ) : ℚ) ^ (52 + guess) := by
    rw [zpow_add₀ (by norm_num)]
    norm_num
  rw [hbound, Int.lt_zpow_iff_log_lt Nat.one_lt_two hq] at htest
  have hexponent : (if Int.log 2 (num / den : ℚ) < 52 + guess then guess - 1 else guess) =
      Int.log 2 (num / den : ℚ) - 52 := by
    split_ifs <;> omega
  simp only [htest, hexponent, max_def_lt]

/-! ## The nearest magnitude -/

/-- The nearest magnitude depends on the quotient alone. -/
theorem nearest_congr {num den num' den' : ℕ} (hnum : 0 < num) (hden : 0 < den) (hden' : 0 < den')
    (h : (num / den : ℚ) = num' / den') : nearest num den = nearest num' den' := by
  have hnum' : 0 < num' := by
    have hq : (0 : ℚ) < num' / den' := h ▸ by positivity
    rw [Nat.pos_iff_ne_zero]
    rintro rfl
    simp at hq
  have hexponent : exponentFor num den = exponentFor num' den' := by
    rw [exponentFor_eq hnum hden, exponentFor_eq hnum' hden', h]
  simp only [nearest, if_neg (Nat.ne_of_gt hnum), if_neg (Nat.ne_of_gt hnum'), hexponent,
    scaled_congr hden hden' h]

/-- The nearest magnitude is in lowest form, unless it is too large. -/
theorem canonical_nearest (num : ℕ) {den : ℕ} (hden : 0 < den)
    (hle : (nearest num den).exponent ≤ greatestExponent) : (nearest num den).Canonical := by
  obtain rfl | hnum := Nat.eq_zero_or_pos num
  · exact ⟨Nat.pow_pos Nat.two_pos, le_rfl, hle, .inr rfl⟩
  have hq : (0 : ℚ) < num / den := by positivity
  have hexponent := exponentFor_eq hnum hden
  rw [nearest, if_neg (Nat.ne_of_gt hnum)] at hle ⊢
  generalize exponentFor num den = exponent at hle hexponent
  have hleast : leastExponent ≤ exponent := hexponent ▸ le_max_right _ _
  have hscaled : scaled num den exponent ≤ 2 ^ 53 := by
    refine scaled_le_of_lt hden ?_
    rw [div_lt_iff₀ (by positivity), Nat.cast_pow, Nat.cast_ofNat, ← zpow_natCast,
      ← zpow_add₀ two_ne_zero]
    have hlog := (Int.lt_zpow_iff_log_lt (x := 53 + exponent) Nat.one_lt_two hq).mpr (by omega)
    rwa [Nat.cast_ofNat] at hlog
  have hnormal : 2 ^ 52 ≤ scaled num den exponent ∨ exponent = leastExponent := by
    refine (eq_or_ne exponent leastExponent).symm.imp_left fun hne => le_scaled_of_le hden ?_
    rw [le_div_iff₀ (by positivity), Nat.cast_pow, Nat.cast_ofNat, ← zpow_natCast,
      ← zpow_add₀ two_ne_zero]
    have hlog := (Int.zpow_le_iff_le_log (x := 52 + exponent) Nat.one_lt_two hq).mpr (by omega)
    rwa [Nat.cast_ofNat] at hlog
  dsimp only at hle ⊢
  split_ifs at hle ⊢ with hfull
  · exact ⟨Nat.pow_lt_pow_right Nat.one_lt_two (by omega), by dsimp only; omega, hle, .inl (Nat.le_refl _)⟩
  · exact ⟨lt_of_le_of_ne hscaled hfull, hleast, hle, hnormal⟩

/-- A rational number is near enough to a magnitude: within half a unit of the last bit, or within
a quarter of it for a power of two. -/
def Near (d : Dyadic) (q : ℚ) : Prop :=
  |q / 2 ^ d.exponent - d.mantissa| < if d.mantissa = 2 ^ 52 then 1 / 4 else 1 / 2

theorem Near.lt_half {d : Dyadic} {q : ℚ} (h : d.Near q) :
    |q / 2 ^ d.exponent - d.mantissa| < 1 / 2 := by
  refine lt_of_lt_of_le h ?_
  split_ifs <;> norm_num

section Order

variable {q : ℚ} {e order : ℤ}

/-- The binary order of a multiple of a power of two. -/
theorem le_log_of_le_div (h : (2 : ℚ) ^ order ≤ q / 2 ^ e) : order + e ≤ Int.log 2 q := by
  rw [le_div_iff₀ (by positivity), ← zpow_add₀ two_ne_zero] at h
  have hq : 0 < q := lt_of_lt_of_le (by positivity) h
  exact (Int.zpow_le_iff_le_log Nat.one_lt_two hq).mp (by rwa [Nat.cast_ofNat])

theorem log_lt_of_div_lt (hq : 0 < q) (h : q / 2 ^ e < 2 ^ order) : Int.log 2 q < order + e := by
  rw [div_lt_iff₀ (by positivity), ← zpow_add₀ two_ne_zero] at h
  exact (Int.lt_zpow_iff_log_lt Nat.one_lt_two hq).mp (by rwa [Nat.cast_ofNat])

end Order

/-- The exponent of a quotient with 53 bits in front of the point, or with fewer at the least one. -/
theorem exponentFor_eq_of_log {num den : ℕ} (hnum : 0 < num) (hden : 0 < den) {e : ℤ}
    (hleast : leastExponent ≤ e) (hlt : Int.log 2 (num / den : ℚ) < 53 + e)
    (hge : 52 + e ≤ Int.log 2 (num / den : ℚ) ∨ e = leastExponent) : exponentFor num den = e := by
  rw [exponentFor_eq hnum hden]
  obtain hge | hge := hge
  · rw [max_eq_left] <;> omega
  · rw [max_eq_right] <;> omega

/-- Only a power of two has magnitudes closer below it than half a unit. -/
theorem Near.mantissa_eq {d : Dyadic} {q : ℚ} (hd : d.Canonical) (h : d.Near q)
    (hbelow : q / 2 ^ d.exponent < 2 ^ 52) (hnormal : d.exponent ≠ leastExponent) :
    d.mantissa = 2 ^ 52 := by
  have hlow := hd.normal.resolve_right hnormal
  have hnear := abs_lt.mp h.lt_half
  have hhigh : (d.mantissa : ℚ) < 2 ^ 52 + 1 := by linarith [hnear.1]
  have hle : d.mantissa < 2 ^ 52 + 1 := by exact_mod_cast hhigh
  omega

/-- A quotient that is near enough to a magnitude is rounded to it. -/
theorem nearest_eq_of_near {d : Dyadic} (hd : d.Canonical) {num den : ℕ} (hnum : 0 < num)
    (hden : 0 < den) (h : d.Near (num / den)) : nearest num den = d := by
  have hq : (0 : ℚ) < num / den := by positivity
  have hhalf := h.lt_half
  have hmantissa : (d.mantissa : ℚ) + 1 ≤ 2 ^ 53 := by exact_mod_cast hd.mantissa_lt
  have hleast := hd.least_le
  have hnear := abs_lt.mp hhalf
  rw [nearest, if_neg (Nat.ne_of_gt hnum)]
  by_cases hplace : (2 : ℚ) ^ 52 ≤ num / den / 2 ^ d.exponent ∨ d.exponent = leastExponent
  · have hlt : Int.log 2 (num / den : ℚ) < 53 + d.exponent := by
      refine log_lt_of_div_lt hq ?_
      rw [zpow_ofNat]
      linarith [hnear.2]
    have hge : 52 + d.exponent ≤ Int.log 2 (num / den : ℚ) ∨ d.exponent = leastExponent :=
      hplace.imp_left le_log_of_le_div
    have hscaled : scaled num den d.exponent = d.mantissa := scaled_eq_of_near hden hhalf
    simp only [exponentFor_eq_of_log hnum hden hleast hlt hge, hscaled]
    exact if_neg (Nat.ne_of_lt hd.mantissa_lt)
  · -- just below a power of two magnitudes lie closer
    rw [not_or, not_le] at hplace
    obtain ⟨hbelow, hnormal⟩ := hplace
    have hpower := h.mantissa_eq hd hbelow hnormal
    rw [Near, if_pos hpower, hpower, abs_lt] at h
    push_cast at h
    have hlt : Int.log 2 (num / den : ℚ) < 53 + (d.exponent - 1) := by
      have hlog : Int.log 2 (num / den : ℚ) < 52 + d.exponent := log_lt_of_div_lt hq hbelow
      omega
    have hge : 52 + (d.exponent - 1) ≤ Int.log 2 (num / den : ℚ) := by
      have hlog : 51 + d.exponent ≤ Int.log 2 (num / den : ℚ) := by
        refine le_log_of_le_div ?_
        rw [zpow_ofNat]
        linarith [h.1]
      omega
    have hexponent := exponentFor_eq_of_log hnum hden (by omega) hlt (.inl hge)
    have hscaled : scaled num den (d.exponent - 1) = 2 ^ 53 := by
      refine scaled_eq_of_near hden ?_
      rw [zpow_sub_one₀ two_ne_zero, ← div_div, div_inv_eq_mul, abs_lt]
      push_cast
      constructor <;> linarith [h.1, h.2]
    simp only [hexponent, hscaled]
    refine (if_pos rfl).trans ?_
    rw [Int.sub_add_cancel]
    show (⟨2 ^ 52, d.exponent⟩ : Dyadic) = d
    rw [← hpower]

end Dyadic

/-! ## Numbers -/

namespace Binary64

/-- A number whose magnitude, if it has one, is in lowest form. -/
def Canonical (x : Binary64) : Prop := ∀ negative m, x = finite negative m → m.Canonical

theorem canonical_ofRatio (negative : Bool) (num : ℕ) {den : ℕ} (hden : 0 < den) :
    (ofRatio negative num den).Canonical := by
  intro negative' m h
  rw [ofRatio] at h
  split_ifs at h with hlarge
  obtain rfl := (finite.inj h).2
  exact Dyadic.canonical_nearest num hden (not_lt.mp hlarge)

theorem canonical_ofDecimal (negative : Bool) (digits : ℕ) (exponent : ℤ) :
    (ofDecimal negative digits exponent).Canonical := by
  rw [ofDecimal]
  split_ifs
  · exact canonical_ofRatio negative 0 Nat.one_pos
  · nofun
  · exact canonical_ofRatio negative 0 Nat.one_pos
  · exact canonical_ofRatio negative _ Nat.one_pos
  · exact canonical_ofRatio negative digits (Nat.pow_pos (by decide))

theorem Canonical.neg {x : Binary64} (h : x.Canonical) : x.neg.Canonical := by
  cases x with
  | nan => nofun
  | infinite negative => nofun
  | finite negative magnitude =>
    intro negative' m hm
    rw [← (finite.inj hm).2]
    exact h negative magnitude rfl

end Binary64

end DocSchema.Number
