import DocSchema.Proofs.Number.Decimal
import DocSchema.Proofs.Number.Nearest
import Mathlib.Algebra.Order.Floor.Semifield

/-!
# Shortest decimals

A magnitude is written with the fewest digits that read back as it. Seventeen digits always do: of
the two neighbours on their grid one is near enough to the magnitude. Zeros at the end of the digits
do not change the decimal.

## Main definitions

* `Decimal.value`: the rational number that a decimal stands for
* `Decimal.InRange`: reading takes no shortcut

## Main results

* `Decimal.ofDecimal_congr`: equal decimals are read alike
* `Decimal.exists_readingBack?_seventeen`: seventeen digits suffice
* `Decimal.ofDecimal_shortest`: the shortest decimal reads back as the magnitude
-/

namespace DocSchema.Number.Decimal

/-! ## Reading -/

/-- The rational number that a decimal stands for. -/
def value (d : Decimal) : ℚ := d.digits * 10 ^ d.exponent

/-- A decimal other than zero whose exponent is not far out of range. -/
structure InRange (d : Decimal) : Prop where
  digits_ne_zero : d.digits ≠ 0
  le_exponent : -1200 ≤ d.exponent
  exponent_le : d.exponent ≤ 400

variable {d d' : Decimal}

theorem InRange.exists_ofRatio (h : d.InRange) (negative : Bool) :
    ∃ num den : ℕ, 0 < num ∧ 0 < den ∧ (num / den : ℚ) = d.value ∧
      Binary64.ofDecimal negative d.digits d.exponent = Binary64.ofRatio negative num den := by
  have hdigits := Nat.pos_of_ne_zero h.digits_ne_zero
  have hle := h.exponent_le
  have hge := h.le_exponent
  rw [value, Binary64.ofDecimal, if_neg h.digits_ne_zero, if_neg (by omega), if_neg (by omega)]
  split_ifs with hsign
  · obtain ⟨n, hn⟩ := Int.eq_ofNat_of_zero_le hsign
    rw [hn]
    refine ⟨d.digits * 10 ^ n, 1, by positivity, Nat.one_pos, ?_, rfl⟩
    simp
  · obtain ⟨n, hn⟩ := Int.eq_ofNat_of_zero_le (by omega : 0 ≤ -d.exponent)
    obtain hneg : d.exponent = -n := by omega
    rw [hneg, neg_neg]
    refine ⟨d.digits, 10 ^ n, hdigits, by positivity, ?_, rfl⟩
    simp [div_eq_mul_inv]

/-- Equal decimals are read alike. -/
theorem ofDecimal_congr (h : d.InRange) (h' : d'.InRange) (hvalue : d.value = d'.value)
    (negative : Bool) :
    Binary64.ofDecimal negative d.digits d.exponent =
      Binary64.ofDecimal negative d'.digits d'.exponent := by
  obtain ⟨num, den, hnum, hden, hq, heq⟩ := h.exists_ofRatio negative
  obtain ⟨num', den', -, hden', hq', heq'⟩ := h'.exists_ofRatio negative
  rw [heq, heq', Binary64.ofRatio, Binary64.ofRatio,
    Dyadic.nearest_congr hnum hden hden' (by rw [hq, hq', hvalue])]

/-- A decimal that is near enough to a magnitude is read as it. -/
theorem ofDecimal_eq_of_near {m : Dyadic} (hm : m.Canonical) (h : d.InRange)
    (hnear : m.Near d.value) (negative : Bool) :
    Binary64.ofDecimal negative d.digits d.exponent = .finite negative m := by
  obtain ⟨num, den, hnum, hden, hq, heq⟩ := h.exists_ofRatio negative
  rw [heq, Binary64.ofRatio, Dyadic.nearest_eq_of_near hm hnum hden (by rwa [hq])]
  exact if_neg (not_lt.mpr hm.le_greatest)

/-! ## Places -/

theorem digitCount_bounds {n : ℕ} (h : 0 < n) :
    (10 : ℚ) ^ ((digitCount n : ℤ) - 1) ≤ n ∧ (n + 1 : ℚ) ≤ 10 ^ (digitCount n : ℤ) := by
  rw [digitCount, if_neg (Nat.ne_of_gt h)]
  have hpos : 0 < (Nat.toDigits 10 n).length := List.length_pos_of_ne_nil Nat.toDigits_ne_nil
  have hlt := (Nat.length_toDigits_le_iff (b := 10) (by decide) hpos).mp le_rfl
  generalize hk : (Nat.toDigits 10 n).length = k at hpos hlt
  obtain ⟨k, rfl⟩ := Nat.exists_eq_succ_of_ne_zero (Nat.ne_of_gt hpos)
  constructor
  · rw [Nat.cast_succ, add_sub_cancel_right, zpow_natCast]
    cases k with
    | zero => exact_mod_cast h
    | succ k =>
      have hle : ¬ (Nat.toDigits 10 n).length ≤ k + 1 := by omega
      rw [Nat.length_toDigits_le_iff (by decide) (Nat.succ_pos k), not_lt] at hle
      exact_mod_cast hle
  · rw [zpow_natCast]
    exact_mod_cast hlt

theorem div_bounds (num den : ℕ) :
    ((num / den : ℕ) : ℚ) ≤ num / den ∧ (num / den : ℚ) < (num / den : ℕ) + 1 := by
  rw [← Nat.floor_div_eq_div (K := ℚ)]
  exact ⟨Nat.floor_le (by positivity), Nat.lt_floor_add_one _⟩

/-- The place of the first digit is the decimal order of the quotient. -/
theorem leadingPlace_bounds {num den : ℕ} (hnum : 0 < num) (hden : 0 < den) :
    (10 : ℚ) ^ (leadingPlace num den - 1) ≤ num / den ∧
      (num / den : ℚ) < 10 ^ leadingPlace num den := by
  have hnum' : (0 : ℚ) < num := by exact_mod_cast hnum
  have hden' : (0 : ℚ) < den := by exact_mod_cast hden
  rw [leadingPlace]
  split_ifs with h
  · obtain ⟨hlow, hhigh⟩ := digitCount_bounds (Nat.div_pos h hden)
    obtain ⟨hle, hlt⟩ := div_bounds num den
    exact ⟨hlow.trans hle, hlt.trans_le hhigh⟩
  · -- the places of the reciprocal, which is no power of ten from below
    have hpos : 0 < (den - 1) / num := Nat.div_pos (by omega) hnum
    have hbelow : num * ((den - 1) / num) < den := by
      have hle := Nat.mul_div_le (den - 1) num
      omega
    have habove : den ≤ num * ((den - 1) / num + 1) := by
      have hlt := Nat.lt_mul_div_succ (den - 1) hnum
      omega
    obtain ⟨hlow, hhigh⟩ := digitCount_bounds hpos
    generalize (den - 1) / num = n at hlow hhigh hbelow habove
    generalize (digitCount n : ℤ) = k at hlow hhigh
    have hbelow' : (num : ℚ) * n < den := by exact_mod_cast hbelow
    have habove' : (den : ℚ) ≤ num * (n + 1) := by exact_mod_cast habove
    constructor
    · rw [sub_sub_cancel_left, zpow_neg, inv_le_comm₀ (by positivity) (by positivity), inv_div,
        div_le_iff₀ hnum']
      calc (den : ℚ) ≤ num * (n + 1) := habove'
        _ ≤ num * 10 ^ k := by gcongr
        _ = 10 ^ k * num := mul_comm _ _
    · have hneg : 1 - k = -(k - 1) := by ring
      rw [hneg, zpow_neg, lt_inv_comm₀ (by positivity) (by positivity), inv_div, lt_div_iff₀ hnum']
      calc (10 : ℚ) ^ (k - 1) * num ≤ n * num := by gcongr
        _ = num * n := mul_comm _ _
        _ < den := hbelow'

theorem onGrid_value (num : ℕ) {den : ℕ} (hden : 0 < den) (exponent : ℤ) :
    0 < (onGrid num den exponent).2 ∧
      ((onGrid num den exponent).1 / (onGrid num den exponent).2 : ℚ) =
        num / den / 10 ^ exponent := by
  rw [onGrid]
  split_ifs with h
  · obtain ⟨n, rfl⟩ := Int.eq_ofNat_of_zero_le h
    refine ⟨Nat.mul_pos hden (Nat.pow_pos (by decide)), ?_⟩
    simp [div_div]
  · obtain ⟨n, hn⟩ := Int.eq_ofNat_of_zero_le (by omega : 0 ≤ -exponent)
    obtain rfl : exponent = -n := by omega
    refine ⟨hden, ?_⟩
    rw [neg_neg, zpow_neg, div_inv_eq_mul]
    simp [div_mul_eq_mul_div]

/-! ## Candidates -/

variable {m : Dyadic}

theorem two_zpow_le_ten_zpow {k n : ℕ} (h : k = 3 * n) : (2 : ℚ) ^ (k : ℤ) ≤ 10 ^ (n : ℤ) := by
  rw [h, zpow_natCast, zpow_natCast, pow_mul]
  exact pow_le_pow_left₀ (by norm_num) (by norm_num) n

/-- A magnitude is neither tiny nor huge. -/
theorem value_bounds (hm : m.Canonical) (hne : m.mantissa ≠ 0) :
    (10 : ℚ) ^ (-358 : ℤ) ≤ m.value ∧ m.value < 10 ^ (342 : ℤ) := by
  have hleast := hm.least_le
  have hgreatest := hm.le_greatest
  have hone : (1 : ℚ) ≤ m.mantissa := by exact_mod_cast Nat.one_le_iff_ne_zero.mpr hne
  have hlt : (m.mantissa : ℚ) < 2 ^ 53 := by exact_mod_cast hm.mantissa_lt
  have hlow : (2 : ℚ) ^ (-1074 : ℤ) ≤ 2 ^ m.exponent := zpow_le_zpow_right₀ one_le_two hleast
  have hhigh : (2 : ℚ) ^ m.exponent ≤ 2 ^ (971 : ℤ) := zpow_le_zpow_right₀ one_le_two hgreatest
  rw [Dyadic.value]
  constructor
  · calc (10 : ℚ) ^ (-358 : ℤ) ≤ 2 ^ (-1074 : ℤ) := by
          rw [zpow_neg, zpow_neg]
          exact inv_anti₀ (by positivity) (two_zpow_le_ten_zpow (k := 1074) (n := 358) rfl)
      _ ≤ 2 ^ m.exponent := hlow
      _ ≤ m.mantissa * 2 ^ m.exponent := le_mul_of_one_le_left (by positivity) hone
  · calc (m.mantissa : ℚ) * 2 ^ m.exponent < 2 ^ 53 * 2 ^ (971 : ℤ) :=
        mul_lt_mul hlt hhigh (by positivity) (by positivity)
      _ = 2 ^ (1024 : ℤ) := by
        rw [← zpow_natCast, ← zpow_add₀ two_ne_zero]
        rfl
      _ ≤ 2 ^ (1026 : ℤ) := zpow_le_zpow_right₀ one_le_two (by decide)
      _ ≤ 10 ^ (342 : ℤ) := two_zpow_le_ten_zpow (k := 1026) (n := 342) rfl

theorem leadingPlace_ratio_bounds (hm : m.Canonical) (hne : m.mantissa ≠ 0) :
    (10 : ℚ) ^ (leadingPlace m.ratio.1 m.ratio.2 - 1) ≤ m.value ∧
      -358 < leadingPlace m.ratio.1 m.ratio.2 ∧ leadingPlace m.ratio.1 m.ratio.2 ≤ 342 := by
  obtain ⟨hden, hvalue⟩ := m.ratio_value
  obtain ⟨hlow, hhigh⟩ := value_bounds hm hne
  have hnum : 0 < m.ratio.1 := by
    rw [Nat.pos_iff_ne_zero]
    intro hzero
    rw [hzero, Nat.cast_zero, zero_div] at hvalue
    rw [← hvalue] at hlow
    exact absurd hlow (not_le.mpr (by positivity))
  obtain ⟨hplace, hnext⟩ := leadingPlace_bounds hnum hden
  rw [hvalue] at hplace hnext
  refine ⟨hplace, ?_, ?_⟩
  · exact (zpow_lt_zpow_iff_right₀ (by norm_num : (1 : ℚ) < 10)).mp (hlow.trans_lt hnext)
  · have hlt := (zpow_lt_zpow_iff_right₀ (by norm_num : (1 : ℚ) < 10)).mp (hplace.trans_lt hhigh)
    omega

/-- A candidate reads back. -/
theorem readsBack_of_readingBack? {count : ℕ} {d : Decimal} (h : readingBack? m count = some d) :
    d.exponent = leadingPlace m.ratio.1 m.ratio.2 - count ∧
      Binary64.ofDecimal false d.digits d.exponent = .finite false m := by
  simp only [readingBack?] at h
  generalize leadingPlace m.ratio.1 m.ratio.2 - (count : ℤ) = exponent at h ⊢
  generalize onGrid m.ratio.1 m.ratio.2 exponent = grid at h
  split at h
  · rename_i hbelow habove
    cases h
    rw [beq_iff_eq] at hbelow habove
    refine ⟨rfl, ?_⟩
    obtain hround | hround : roundDiv grid.1 grid.2 = grid.1 / grid.2 ∨
        roundDiv grid.1 grid.2 = grid.1 / grid.2 + 1 := by
      simp only [roundDiv]
      split_ifs <;> simp
    · rwa [hround]
    · rwa [hround]
  · rename_i hbelow _
    cases h
    exact ⟨rfl, beq_iff_eq.mp hbelow⟩
  · rename_i _ habove
    cases h
    exact ⟨rfl, beq_iff_eq.mp habove⟩
  · cases h

/-- On a grid of seventeen digits a decimal next to a magnitude is near enough to it. -/
theorem near_of_grid (hm : m.Canonical) {exponent : ℤ} (hfine : (10 : ℚ) ^ (exponent + 16) ≤ m.value)
    {digits : ℕ} (hdigits : |(digits : ℚ) - m.value / 10 ^ exponent| ≤ 1 / 2) :
    m.Near (value ⟨digits, exponent⟩) := by
  have hmantissa : (m.mantissa : ℚ) < 2 ^ 53 := by exact_mod_cast hm.mantissa_lt
  have hgrid : (10 : ℚ) ^ exponent / 2 ^ m.exponent ≤ m.mantissa / 10 ^ 16 := by
    rw [div_le_div_iff₀ (by positivity) (by positivity)]
    rwa [Dyadic.value, zpow_add₀ (by norm_num), zpow_ofNat] at hfine
  have hdistance : (digits * 10 ^ exponent / 2 ^ m.exponent - m.mantissa : ℚ) =
      (digits - m.value / 10 ^ exponent) * (10 ^ exponent / 2 ^ m.exponent) := by
    rw [Dyadic.value]
    field_simp
  have hclose : |(digits * 10 ^ exponent / 2 ^ m.exponent - m.mantissa : ℚ)| ≤
      1 / 2 * (m.mantissa / 10 ^ 16) := by
    rw [hdistance, abs_mul, abs_of_nonneg (by positivity : (0 : ℚ) ≤ 10 ^ exponent / 2 ^ m.exponent)]
    exact mul_le_mul hdigits hgrid (by positivity) (by norm_num)
  rw [Dyadic.Near, value]
  refine hclose.trans_lt ?_
  split_ifs with hpower
  · rw [hpower]
    norm_num
  · linarith

/-- Seventeen digits suffice. -/
theorem exists_readingBack?_seventeen (hm : m.Canonical) (hne : m.mantissa ≠ 0) :
    ∃ d, readingBack? m 17 = some d := by
  obtain ⟨hplace, hlow, hhigh⟩ := leadingPlace_ratio_bounds hm hne
  obtain ⟨hden, hvalue⟩ := m.ratio_value
  simp only [readingBack?]
  generalize hexponent : leadingPlace m.ratio.1 m.ratio.2 - ((17 : ℕ) : ℤ) = exponent
  have hfine : (10 : ℚ) ^ (exponent + 16) ≤ m.value := by
    have heq : exponent + 16 = leadingPlace m.ratio.1 m.ratio.2 - 1 := by omega
    rwa [heq]
  obtain ⟨hgrid, hquotient⟩ := onGrid_value m.ratio.1 hden exponent
  generalize onGrid m.ratio.1 m.ratio.2 exponent = grid at hgrid hquotient
  rw [hvalue] at hquotient
  obtain ⟨hbelow, habove⟩ := div_bounds grid.1 grid.2
  rw [hquotient] at hbelow habove
  have hread : ∀ digits : ℕ, digits ≠ 0 → |(digits : ℚ) - m.value / 10 ^ exponent| ≤ 1 / 2 →
      (Binary64.ofDecimal false digits exponent == Binary64.finite false m) = true :=
    fun digits hdigits hclose => beq_iff_eq.mpr (ofDecimal_eq_of_near hm (d := ⟨digits, exponent⟩)
      ⟨hdigits, by show -1200 ≤ exponent; omega, by show exponent ≤ 400; omega⟩
      (near_of_grid hm hfine hclose) false)
  -- the nearer neighbour reads back
  obtain hnear | hnear := le_total (m.value / 10 ^ exponent) ((grid.1 / grid.2 : ℕ) + 1 / 2)
  · have hne : grid.1 / grid.2 ≠ 0 := by
      intro hzero
      have hlarge : (1 : ℚ) ≤ m.value / 10 ^ exponent := by
        rw [le_div_iff₀ (by positivity), one_mul]
        exact (zpow_le_zpow_right₀ (by norm_num) (by omega)).trans hfine
      rw [hzero] at hnear
      norm_num at hnear
      linarith
    rw [hread (grid.1 / grid.2) hne (by rw [abs_le]; constructor <;> linarith)]
    split <;> simp_all
  · rw [hread (grid.1 / grid.2 + 1) (Nat.succ_ne_zero _)
      (by rw [abs_le]; push_cast; constructor <;> linarith)]
    split <;> simp_all

/-! ## Zeros at the end -/

theorem value_trimZeros (fuel : ℕ) (d : Decimal) : (trimZeros fuel d).value = d.value := by
  induction fuel generalizing d with
  | zero => rfl
  | succ fuel ih =>
    rw [trimZeros]
    split_ifs with hzero
    · rw [ih, value, value, zpow_add_one₀ (by norm_num)]
      have hdigits : (d.digits : ℚ) = 10 * (d.digits / 10 : ℕ) := by
        exact_mod_cast (by omega : d.digits = 10 * (d.digits / 10))
      rw [hdigits]
      ring
    · rfl

theorem exponent_trimZeros (fuel : ℕ) (d : Decimal) :
    d.exponent ≤ (trimZeros fuel d).exponent ∧ (trimZeros fuel d).exponent ≤ d.exponent + fuel := by
  induction fuel generalizing d with
  | zero => exact ⟨le_refl _, by rw [trimZeros]; simp⟩
  | succ fuel ih =>
    rw [trimZeros]
    split_ifs with hzero
    · obtain ⟨hlow, hhigh⟩ := ih ⟨d.digits / 10, d.exponent + 1⟩
      dsimp only at hlow hhigh
      push_cast
      omega
    · push_cast
      omega

/-- The shortest decimal of a magnitude other than zero reads back as it. -/
theorem ofDecimal_shortest (hm : m.Canonical) (hne : m.mantissa ≠ 0) :
    (shortest m).InRange ∧ (shortest m).exponent ≤ 361 ∧ -375 ≤ (shortest m).exponent ∧
      Binary64.ofDecimal false (shortest m).digits (shortest m).exponent = .finite false m := by
  obtain ⟨-, hlow, hhigh⟩ := leadingPlace_ratio_bounds hm hne
  obtain ⟨last, hlast⟩ := exists_readingBack?_seventeen hm hne
  have hfound : ∃ d, ((List.range 17).findSome? fun i => readingBack? m (i + 1)) = some d := by
    rw [← Option.isSome_iff_exists, List.findSome?_isSome_iff]
    exact ⟨16, List.mem_range.mpr (by decide), Option.isSome_iff_exists.mpr ⟨last, hlast⟩⟩
  obtain ⟨d, hd⟩ := hfound
  have hshortest : shortest m = trimZeros 20 d := by rw [shortest, hd]
  obtain ⟨i, hi, hcandidate⟩ := List.exists_of_findSome?_eq_some hd
  rw [List.mem_range] at hi
  obtain ⟨hexponent, hread⟩ := readsBack_of_readingBack? hcandidate
  obtain ⟨hle, hge⟩ := exponent_trimZeros 20 d
  push_cast at hexponent hge
  have hrange : d.InRange := ⟨digits_readingBack?_ne_zero hne hcandidate, by omega, by omega⟩
  have htrimmed : (trimZeros 20 d).InRange :=
    ⟨digits_trimZeros_ne_zero 20 hrange.digits_ne_zero, by omega, by omega⟩
  rw [hshortest]
  refine ⟨htrimmed, by omega, by omega, ?_⟩
  rw [ofDecimal_congr htrimmed hrange (value_trimZeros 20 d), hread]

end DocSchema.Number.Decimal
