import DocSchema.Proofs.Json.Grammar
import DocSchema.Proofs.Number.Shortest
import DocSchema.Proofs.Yaml.Writer.Forms

/-!
# Writing floating point numbers

A floating point number is written with its shortest decimal, which reads back as it, and with a
point among the digits, without which it would be a text or an integer.

## Main definitions

* `withPoint`: the digits of a number with a point among them
* `SpellsDecimal`: digits with a point, as a number of units of a decimal place

## Main results

* `exists_spellsDecimal`: the spelling of a decimal
* `Writer.writtenPlain_float`: numbers are read back
-/

namespace DocSchema.Yaml

open Json.Portable (IsExponent isDigit_of_isWhole signChars)
open Json (LaysOut)
open Json.Grammar (IsDigits IsWhole)
open Number (Binary64 Decimal digitChars exponentChars)

/-! ## Spellings -/

/-- The digits of a number with a point among them. -/
def withPoint (cs : List Char) : List Char :=
  let mantissa := cs.takeWhile (· != 'e')
  if mantissa.contains '.' then cs else mantissa ++ '.' :: '0' :: cs.dropWhile (· != 'e')

theorem withPoint_eq_self {cs : List Char} (h : ∀ c ∈ cs, c ≠ 'e') (rest : List Char) :
    withPoint (cs ++ '.' :: rest) = cs ++ '.' :: rest := by
  have hall : ∀ c ∈ cs, (c != 'e') = true := fun c hc => bne_iff_ne.mpr (h c hc)
  have hpoint : ((cs ++ '.' :: rest).takeWhile (· != 'e')).contains '.' = true := by
    rw [List.takeWhile_append_of_pos hall, List.contains_eq_mem]
    exact decide_eq_true (List.mem_append_right _ List.mem_cons_self)
  exact if_pos hpoint

theorem withPoint_exponent {cs : List Char} (h : ∀ c ∈ cs, c.isDigit = true) (rest : List Char) :
    withPoint (cs ++ 'e' :: rest) = cs ++ '.' :: '0' :: 'e' :: rest := by
  have hall : ∀ c ∈ cs, (c != 'e') = true := fun c hc => bne_iff_ne.mpr (ne_of_isDigit (h c hc) rfl)
  have htake : (cs ++ 'e' :: rest).takeWhile (· != 'e') = cs := by
    rw [List.takeWhile_append_of_pos hall]
    exact List.append_nil cs
  have hdrop : (cs ++ 'e' :: rest).dropWhile (· != 'e') = 'e' :: rest :=
    List.dropWhile_append_of_pos hall
  have hpoint : cs.contains '.' = false := by
    rw [List.contains_eq_mem, decide_eq_false_iff_not]
    exact fun hmem => ne_of_isDigit (h '.' hmem) rfl rfl
  rw [withPoint, htake, hdrop]
  exact if_neg (Bool.eq_false_iff.mp hpoint)

theorem isExponent_exponentChars (exponent : Int) :
    IsExponent (exponentChars exponent) exponent := by
  have hdigits := (Json.isDigits_digitChars exponent.natAbs).replicate_append
    (2 - (digitChars exponent.natAbs).length)
  have hvalue : Binary64.digitsValue (List.replicate (2 - (digitChars exponent.natAbs).length) '0' ++
      digitChars exponent.natAbs) = exponent.natAbs := by
    rw [Json.digitsValue_replicate, Json.digitsValue_digitChars]
  rw [exponentChars]
  split_ifs with hsign
  · have hnegative := @IsExponent.negative 'e' _ List.mem_cons_self hdigits
    rwa [hvalue, Int.ofNat_natAbs_of_nonpos (by omega), Int.neg_neg] at hnegative
  · have hpositive := @IsExponent.positive 'e' _ List.mem_cons_self hdigits
    rwa [hvalue, Int.natAbs_of_nonneg (by omega)] at hpositive

/-- A number with a point: what its digits stand for, and in units of which place. -/
inductive SpellsDecimal : List Char → Nat → Int → Prop
  | parts {whole places exponent : List Char} {order : Int} : IsWhole whole → IsDigits places →
    IsExponent exponent order →
    SpellsDecimal (whole ++ '.' :: (places ++ exponent)) (Binary64.digitsValue (whole ++ places))
      (order - places.length)

/-- A decimal that is laid out without a point gets a zero behind its digits. -/
theorem spellsDecimal_of_laysOut {value : Nat} {unit : Int} {cs : List Char}
    (h : LaysOut value unit cs) :
    SpellsDecimal (withPoint cs) value unit ∨ SpellsDecimal (withPoint cs) (value * 10) (unit - 1) := by
  have hletter : ∀ {whole}, IsWhole whole → ∀ c ∈ whole, c ≠ 'e' := fun hwhole c hc =>
    ne_of_isDigit ((isDigit_of_isWhole hwhole).isDigit c hc) rfl
  cases h with
  | @places whole places hwhole hplaces hvalue hunit =>
    have hspells := SpellsDecimal.parts hwhole hplaces .none
    rw [hvalue, zero_sub, hunit, List.append_nil] at hspells
    exact .inl ((withPoint_eq_self (hletter hwhole) places).symm ▸ hspells)
  | @exponent whole hwhole hvalue =>
    have hspells := SpellsDecimal.parts hwhole Json.isDigits_zero (isExponent_exponentChars unit)
    rw [show ['0'] = List.replicate 1 '0' from rfl, Json.digitsValue_zeros, hvalue] at hspells
    exact .inr ((withPoint_exponent (isDigit_of_isWhole hwhole).isDigit _).symm ▸ hspells)
  | @both whole places order hwhole hplaces hvalue hunit =>
    have hspells := SpellsDecimal.parts hwhole hplaces (isExponent_exponentChars order)
    rw [hvalue, hunit] at hspells
    exact .inl ((withPoint_eq_self (hletter hwhole) _).symm ▸ hspells)

/-- A decimal is spelled with its digits, and perhaps with zeros behind them. -/
theorem exists_spellsDecimal {d : Decimal} (h : d.digits ≠ 0) :
    ∃ k : Nat, k ≤ 17 ∧ SpellsDecimal (withPoint d.chars) (d.digits * 10 ^ k) (d.exponent - k) := by
  obtain ⟨k, hk, hlaysOut⟩ := Json.exists_laysOut h
  obtain hspells | hspells := spellsDecimal_of_laysOut hlaysOut
  · exact ⟨k, by omega, hspells⟩
  · refine ⟨k + 1, by omega, ?_⟩
    rwa [Nat.mul_assoc, ← Nat.pow_succ, Int.sub_sub, ← Nat.cast_succ] at hspells

/-! ## Values -/

theorem float_of_spellsDecimal {cs : List Char} {digits : Nat} {unit : Int}
    (h : SpellsDecimal cs digits unit) (negative : Bool) :
    Tag.ofPlain (String.ofList (signChars negative ++ cs)) = .float ∧
      Scalar.float (String.ofList (signChars negative ++ cs)) =
        .ok (Binary64.ofDecimal negative digits unit) := by
  cases h with
  | parts hwhole hplaces hexponent =>
    exact ⟨Tag.ofPlain_float negative hwhole hplaces hexponent,
      Scalar.float_eq hwhole hplaces hexponent negative⟩

theorem canBePlain_of_spellsDecimal {cs : List Char} {digits : Nat} {unit : Int}
    (h : SpellsDecimal cs digits unit) (negative : Bool) :
    canBePlain (signChars negative ++ cs) = true := by
  cases h with
  | @parts whole places exponent order hwhole hplaces hexponent =>
    have hword := isWordChar_float hwhole hplaces hexponent negative
    refine (Writer.isNumeric_signed negative (isDigit_of_isWhole hwhole) (fun c hc => hword c ?_)
      fun c hc => ?_).canBePlain
    · exact List.mem_append_right _ (List.mem_append_right _ hc)
    · rw [← List.cons_append] at hc
      cases exponent with
      | nil =>
        rw [List.append_nil, ← List.singleton_append,
          List.getLast?_append_of_ne_nil _ hplaces.ne_nil] at hc
        exact hplaces.isDigit c (List.mem_of_getLast? hc)
      | cons mark exponent =>
        rw [List.getLast?_append_of_ne_nil _ (List.cons_ne_nil _ _)] at hc
        exact IsExponent.last_isDigit hexponent c hc

/-- The decimal of a magnitude reads back with either sign, and with zeros at its end. -/
theorem ofDecimal_zeros {m : Number.Dyadic} (hm : m.Canonical) (hne : m.mantissa ≠ 0) {k : Nat}
    (hk : k ≤ 17) (negative : Bool) :
    Binary64.ofDecimal negative ((Decimal.shortest m).digits * 10 ^ k)
      ((Decimal.shortest m).exponent - k) = .finite negative m := by
  obtain ⟨hrange, hle, hge, hread⟩ := Decimal.ofDecimal_shortest hm hne
  have hsame := @Decimal.ofDecimal_congr ⟨(Decimal.shortest m).digits * 10 ^ k,
    (Decimal.shortest m).exponent - k⟩ (Decimal.shortest m)
    ⟨by have := hrange.digits_ne_zero; positivity, by dsimp only; omega, by dsimp only; omega⟩ hrange
    (by
      rw [Decimal.value, Decimal.value, zpow_sub₀ (by norm_num), zpow_natCast]
      push_cast
      field_simp) negative
  refine hsame.trans ?_
  cases negative with
  | false => exact hread
  | true =>
    have hneg := neg_ofDecimal false (Decimal.shortest m).digits (Decimal.shortest m).exponent
    rw [hread] at hneg
    exact hneg.symm

/-! ## Numbers -/

theorem withPoint_sign (negative : Bool) (cs : List Char) :
    withPoint (signChars negative ++ cs) = signChars negative ++ withPoint cs := by
  cases negative with
  | false => rfl
  | true =>
    have hpoint : ('-' :: cs.takeWhile (· != 'e')).contains '.' =
        (cs.takeWhile (· != 'e')).contains '.' := rfl
    show (if ('-' :: cs.takeWhile (· != 'e')).contains '.' then '-' :: cs
      else '-' :: cs.takeWhile (· != 'e') ++ '.' :: '0' :: cs.dropWhile (· != 'e')) = '-' :: withPoint cs
    rw [hpoint, withPoint]
    split_ifs <;> rfl

theorem floatText_finite (negative : Bool) (m : Number.Dyadic) :
    Writer.floatText (.finite negative m) = String.ofList (signChars negative ++
      withPoint (if m.mantissa = 0 then ['0', '.', '0'] else (Decimal.shortest m).chars)) := by
  rw [← withPoint_sign, Writer.floatText]
  · exact (apply_ite String.ofList _ _ _).symm
  · nofun
  · nofun

/-- A finite number in lowest form is spelled so that it is read back. -/
theorem exists_spellsDecimal_finite {m : Number.Dyadic} (hm : m.Canonical) (negative : Bool) :
    ∃ cs digits unit, Writer.floatText (.finite negative m) = String.ofList (signChars negative ++ cs) ∧
      SpellsDecimal cs digits unit ∧ Binary64.ofDecimal negative digits unit = .finite negative m := by
  rw [floatText_finite]
  by_cases hzero : m.mantissa = 0
  · refine ⟨_, 0, 0 - 1, rfl, ?_, ?_⟩
    · rw [if_pos hzero]
      exact .parts .zero Json.isDigits_zero .none
    · have hleast : m.exponent = Number.Dyadic.leastExponent :=
        hm.normal.resolve_left (by rw [hzero]; decide)
      have heq : m = ⟨0, Number.Dyadic.leastExponent⟩ := by
        rw [← hzero, ← hleast]
      rw [heq]
      rfl
  · obtain ⟨k, hk, hspells⟩ := exists_spellsDecimal (Decimal.digits_shortest_ne_zero hzero)
    rw [if_neg hzero]
    exact ⟨_, _, _, rfl, hspells, ofDecimal_zeros hm hzero hk negative⟩

namespace Writer

/-- Numbers are read back: those that are not finite by their names. -/
theorem writtenPlain_float {x : Binary64} (h : ∀ negative m, x = .finite negative m → m.Canonical) :
    WrittenPlain ⟨"float", floatText x, false⟩ (.float x) := by
  cases x with
  | nan => exact ⟨rfl, by decide, by decide, rfl, by decide, rfl⟩
  | infinite negative =>
    cases negative
    · exact ⟨rfl, by decide, by decide, rfl, by decide, rfl⟩
    · exact ⟨rfl, by decide, by decide, rfl, by decide, rfl⟩
  | finite negative m =>
    obtain ⟨cs, digits, unit, htext, hspells, hread⟩ :=
      exists_spellsDecimal_finite (h negative m rfl) negative
    obtain ⟨htag, hvalue⟩ := float_of_spellsDecimal hspells negative
    rw [htext]
    refine writtenPlain_of_tag (by decide) htag rfl rfl ?_ ?_
    · rw [String.toList_ofList]
      exact canBePlain_of_spellsDecimal hspells negative
    · rw [Scalar.value, hvalue, hread]
      rfl

end Writer

end DocSchema.Yaml
