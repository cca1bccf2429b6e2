import DocSchema.Proofs.Capacity.Estimates
import DocSchema.Proofs.Json.Scalars
import DocSchema.Proofs.Number.Accuracy

/-!
# Capacity figures

What a capacity estimate is shown as: a size in bytes or in tenths of a kilobyte, and a number of
records in thousands or in tenths of a million. A figure lies within half a unit of its last place
from the number that it stands for, although the number is rounded twice: sizes are divided by a
power of two, so that their first rounding is exact, and numbers of records are far from having 53
bits.

Two different numbers are within half a unit only of figures in the same order. So for an entity
with more fields the size that is shown is no smaller, and the number of records that is shown is no
greater. This holds also where the unit changes: a size of 1024 bytes is shown as ten tenths of a
kilobyte, which is more than any size that is shown in bytes, and just above a million the number of
records is shown as ten tenths of a million, which is what a million is shown as.

## Main definitions

* `SizeFigure`, `CountFigure`: figures, with their texts, what they stand for, and what numbers they
  are near to
* `Entity.Shows`: the figures that are shown for an entity

## Main results

* `docSizeText_eq`, `freeTierText_eq`: the figures that are shown
* `SizeFigure.near_ofSize`, `CountFigure.near_ofCount`: how accurate they are
* `figures_near_and_ordered`
-/

namespace DocSchema

open Number (Dyadic digitChars fixedChars)

/-! ## Figures -/

/-- A number of tenths, with one decimal place. -/
def tenthsText (tenths : ℕ) : String := toString (tenths / 10) ++ "." ++ toString (tenths % 10)

/-- A size that is shown. -/
inductive SizeFigure
  | bytes (n : ℕ)
  /-- A number of tenths of a kilobyte. -/
  | kilobytes (tenths : ℕ)
  deriving DecidableEq, Repr

namespace SizeFigure

/-- The text of a figure. -/
def text : SizeFigure → String
  | bytes n => "~" ++ toString n ++ "B"
  | kilobytes tenths => "~" ++ tenthsText tenths ++ "KB"

/-- The size that a figure stands for, in tenths of a byte. -/
def tenthBytes : SizeFigure → ℕ
  | bytes n => 10 * n
  | kilobytes tenths => 1024 * tenths

/-- A figure shows a size below 1024 bytes as it is, and any other with an error of half a tenth of
a kilobyte at most. -/
def Near (size : ℕ) : SizeFigure → Prop
  | bytes n => size < 1024 ∧ n = size
  | kilobytes tenths => 1024 ≤ size ∧ |(1024 * tenths : ℤ) - 10 * size| ≤ 512

/-- The figure for a size. -/
def ofSize (size : ℕ) : SizeFigure :=
  if size < 1024 then bytes size else kilobytes ((Dyadic.nearest size 1024).toFixed 1)

end SizeFigure

/-- A number of records that is shown. -/
inductive CountFigure
  | unbounded
  | thousands (n : ℕ)
  /-- A number of tenths of a million. -/
  | millions (tenths : ℕ)
  deriving DecidableEq, Repr

namespace CountFigure

/-- The text of a figure. -/
def text : CountFigure → String
  | unbounded => "unbounded"
  | thousands n => toString n ++ "K docs"
  | millions tenths => tenthsText tenths ++ "M docs"

/-- The number of records that a figure stands for. -/
def docs : CountFigure → ℕ∞
  | unbounded => ⊤
  | thousands n => (1000 * n : ℕ)
  | millions tenths => (100000 * tenths : ℕ)

/-- A figure shows a number of records up to a million with an error of half a thousand at most, and
any other with an error of half a tenth of a million. -/
def Near : Option ℕ → CountFigure → Prop
  | none, unbounded => True
  | some docs, thousands n => docs ≤ 1000000 ∧ |(1000 * n : ℤ) - docs| ≤ 500
  | some docs, millions tenths => 1000000 < docs ∧ |(100000 * tenths : ℤ) - docs| ≤ 50000
  | _, _ => False

/-- The figure for a number of records. -/
def ofCount : Option ℕ → CountFigure
  | none => unbounded
  | some docs =>
    if 1000000 < docs then millions ((Dyadic.nearest docs 1000000).toFixed 1)
    else thousands ((Dyadic.nearest docs 1000).toFixed 0)

end CountFigure

/-! ## Texts -/

theorem fixedChars_zero (units : ℕ) : fixedChars units 0 = digitChars units := by
  have hlength : 0 < (digitChars units).length := Nat.length_toDigits_pos
  have hpad : 0 + 1 - (digitChars units).length = 0 := by omega
  simp only [fixedChars, hpad, List.replicate_zero, List.nil_append, if_pos]

theorem fixedChars_one (units : ℕ) :
    fixedChars units 1 = digitChars (units / 10) ++ '.' :: digitChars (units % 10) := by
  have hlast : digitChars (units % 10) = [Nat.digitChar (units % 10)] :=
    Nat.toDigits_of_lt_base (Nat.mod_lt _ (by decide))
  rcases Nat.lt_or_ge units 10 with hsmall | hlarge
  · -- one digit is padded with a zero
    have hdigits : digitChars units = [Nat.digitChar units] := Nat.toDigits_of_lt_base hsmall
    rw [hlast, Nat.div_eq_of_lt hsmall, Nat.mod_eq_of_lt hsmall]
    simp only [fixedChars, hdigits]
    rfl
  · have hdigits : digitChars units = digitChars (units / 10) ++ [Nat.digitChar (units % 10)] :=
      Nat.toDigits_of_base_le (by decide) hlarge
    have hlength : 0 < (digitChars (units / 10)).length := Nat.length_toDigits_pos
    have hpad : 1 + 1 - ((digitChars (units / 10)).length + 1) = 0 := by omega
    simp [fixedChars, hdigits, hlast, hpad]

theorem toList_tenthsText (tenths : ℕ) :
    (tenthsText tenths).toList = digitChars (tenths / 10) ++ '.' :: digitChars (tenths % 10) := by
  simp [tenthsText, digitChars]

theorem quotientText_natCast (num den places : ℕ) :
    quotientText num den places =
      String.ofList (fixedChars ((Dyadic.nearest num den).toFixed places) places) := by
  simp [quotientText]

/-- A quotient with one decimal place is written as a number of tenths. -/
theorem quotientText_one (num den : ℕ) :
    quotientText num den 1 = tenthsText ((Dyadic.nearest num den).toFixed 1) := by
  rw [quotientText_natCast, fixedChars_one, ← toList_tenthsText, String.ofList_toList]

theorem quotientText_zero (num den : ℕ) :
    quotientText num den 0 = toString ((Dyadic.nearest num den).toFixed 0) := by
  rw [quotientText_natCast, fixedChars_zero]
  rfl

theorem docSizeText_eq (size : ℕ) : docSizeText size = (SizeFigure.ofSize size).text := by
  rw [docSizeText, SizeFigure.ofSize]
  by_cases hsmall : size < 1024
  · rw [if_pos (by exact_mod_cast hsmall), if_pos hsmall]
    rfl
  · rw [if_neg (by exact_mod_cast hsmall), if_neg hsmall, quotientText_one]
    rfl

theorem freeTierText_eq (docs : Option ℕ) :
    freeTierText (docs.map fun n : ℕ => (n : ℤ)) = (CountFigure.ofCount docs).text := by
  cases docs with
  | none => rfl
  | some docs =>
    rw [Option.map_some, freeTierText, CountFigure.ofCount]
    by_cases hlarge : 1000000 < docs
    · rw [if_pos (by exact_mod_cast hlarge), if_pos hlarge, quotientText_one]
      rfl
    · rw [if_neg (by exact_mod_cast hlarge), if_neg hlarge, quotientText_zero]
      rfl

/-! ## Figures of a text -/

/-- A number is determined by its digits, whatever follows that is no digit. -/
theorem digitChars_append_inj {m n : ℕ} {c d : Char} {r t : List Char} (hc : c.isDigit = false)
    (hd : d.isDigit = false) (h : digitChars m ++ c :: r = digitChars n ++ d :: t) :
    m = n ∧ c = d ∧ r = t := by
  have htake : ∀ (k : ℕ) {c : Char} (rest : List Char), c.isDigit = false →
      (digitChars k ++ c :: rest).takeWhile Char.isDigit = digitChars k := by
    intro k c rest hc
    rw [List.takeWhile_append_of_pos fun _ => Json.isDigit_of_mem_digitChars,
      List.takeWhile_cons_of_neg (by simp [hc]), List.append_nil]
  have hdigits : digitChars m = digitChars n := by rw [← htake m r hc, h, htake n t hd]
  rw [hdigits, List.append_cancel_left_eq, List.cons.injEq] at h
  refine ⟨?_, h⟩
  rw [← Json.digitsValue_digitChars m, hdigits, Json.digitsValue_digitChars]

theorem tenths_append_inj {s t : ℕ} {c d : Char} {q r : List Char} (hc : c.isDigit = false)
    (hd : d.isDigit = false)
    (h : digitChars (s / 10) ++ '.' :: (digitChars (s % 10) ++ c :: q) =
      digitChars (t / 10) ++ '.' :: (digitChars (t % 10) ++ d :: r)) : s = t := by
  obtain ⟨hwhole, -, hrest⟩ := digitChars_append_inj (by decide) (by decide) h
  obtain ⟨hplace, -, -⟩ := digitChars_append_inj hc hd hrest
  omega

namespace SizeFigure

theorem toList_text_bytes (n : ℕ) : (bytes n).text.toList = '~' :: (digitChars n ++ ['B']) := by
  simp [text, digitChars]

theorem toList_text_kilobytes (tenths : ℕ) :
    (kilobytes tenths).text.toList =
      '~' :: (digitChars (tenths / 10) ++ '.' :: (digitChars (tenths % 10) ++ ['K', 'B'])) := by
  simp [text, toList_tenthsText]

theorem text_injective : Function.Injective text := by
  intro x y h
  have hchars := congrArg String.toList h
  cases x <;> cases y <;>
    simp only [toList_text_bytes, toList_text_kilobytes, List.cons.injEq, true_and] at hchars
  case bytes.bytes => rw [(digitChars_append_inj (by decide) (by decide) hchars).1]
  case bytes.kilobytes =>
    exact absurd (digitChars_append_inj (by decide) (by decide) hchars).2.1 (by decide)
  case kilobytes.bytes =>
    exact absurd (digitChars_append_inj (by decide) (by decide) hchars).2.1 (by decide)
  case kilobytes.kilobytes => rw [tenths_append_inj (by decide) (by decide) hchars]

end SizeFigure

namespace CountFigure

theorem toList_text_thousands (n : ℕ) :
    (thousands n).text.toList = digitChars n ++ 'K' :: " docs".toList := by
  simp [text, digitChars]

theorem toList_text_millions (tenths : ℕ) :
    (millions tenths).text.toList =
      digitChars (tenths / 10) ++ '.' :: (digitChars (tenths % 10) ++ 'M' :: " docs".toList) := by
  simp [text, toList_tenthsText]

/-- A text that starts with digits is not the word for a number without bound. -/
theorem text_unbounded_ne (n : ℕ) (rest : List Char) :
    unbounded.text.toList ≠ digitChars n ++ rest := by
  intro h
  obtain ⟨c, cs, hdigits⟩ := List.exists_cons_of_ne_nil (Json.digitChars_ne_nil n)
  have hdigit : c.isDigit = true := Json.isDigit_of_mem_digitChars (hdigits ▸ List.mem_cons_self)
  rw [hdigits] at h
  obtain rfl : 'u' = c := (List.cons.inj h).1
  exact absurd hdigit (by decide)

theorem text_injective : Function.Injective text := by
  intro x y h
  have hchars := congrArg String.toList h
  cases x <;> cases y <;>
    simp only [toList_text_thousands, toList_text_millions] at hchars
  case unbounded.unbounded => rfl
  case unbounded.thousands => exact absurd hchars (text_unbounded_ne _ _)
  case unbounded.millions => exact absurd hchars (text_unbounded_ne _ _)
  case thousands.unbounded => exact absurd hchars.symm (text_unbounded_ne _ _)
  case millions.unbounded => exact absurd hchars.symm (text_unbounded_ne _ _)
  case thousands.thousands => rw [(digitChars_append_inj (by decide) (by decide) hchars).1]
  case thousands.millions =>
    exact absurd (digitChars_append_inj (by decide) (by decide) hchars).2.1 (by decide)
  case millions.thousands =>
    exact absurd (digitChars_append_inj (by decide) (by decide) hchars).2.1 (by decide)
  case millions.millions => rw [tenths_append_inj (by decide) (by decide) hchars]

end CountFigure

/-! ## Accuracy -/

/-- A size is divided by a power of two, which rounds nothing off. -/
theorem value_nearest_size {size : ℕ} (hpos : 0 < size) (hsize : size < 2 ^ 53) :
    (Dyadic.nearest size 1024).value = size / (1024 : ℕ) := by
  have hunits : (size / (1024 : ℕ) : ℚ) = size * 2 ^ (-10 : ℤ) := by
    rw [div_eq_mul_inv, zpow_neg]
    norm_num
  exact Dyadic.value_nearest_of_eq_mul hpos (by decide) hsize (by decide) hunits

theorem SizeFigure.near_ofSize {size : ℕ} (hsize : size < 2 ^ 53) : (ofSize size).Near size := by
  rw [ofSize]
  split_ifs with hsmall
  · exact ⟨hsmall, rfl⟩
  · refine ⟨not_lt.mp hsmall, ?_⟩
    have hvalue := value_nearest_size (by omega) hsize
    have hoff := Dyadic.abs_mul_toFixed_sub_le_of_value_eq 1 (by decide) hvalue
    push_cast at hoff
    rw [mul_comm (size : ℤ)] at hoff
    linarith

theorem CountFigure.near_ofCount {docs : Option ℕ} (hdocs : ∀ n ∈ docs, n < 2 ^ 53) :
    (ofCount docs).Near docs := by
  cases docs with
  | none => trivial
  | some docs =>
    have hbound := hdocs docs rfl
    rw [ofCount]
    split_ifs with hlarge
    · refine ⟨hlarge, ?_⟩
      have hoff := Dyadic.abs_mul_toFixed_nearest_sub_le 100000 1 (by decide) rfl (by decide)
        (by decide) hbound
      push_cast at hoff
      linarith
    · refine ⟨not_lt.mp hlarge, ?_⟩
      have hoff := Dyadic.abs_mul_toFixed_nearest_sub_le 1000 0 (by decide) rfl (by decide)
        (by decide) hbound
      push_cast at hoff
      linarith

/-! ## Order -/

/-- Sizes that differ are near to figures in the same order, in whatever units. -/
theorem SizeFigure.tenthBytes_le_of_near {a b : ℕ} {x y : SizeFigure} (hx : x.Near a)
    (hy : y.Near b) (hlt : a < b) : x.tenthBytes ≤ y.tenthBytes := by
  cases x <;> cases y <;> simp only [Near, tenthBytes, abs_le] at hx hy ⊢ <;> omega

theorem SizeFigure.tenthBytes_ofSize_le {a b : ℕ} (hle : a ≤ b) (hb : b < 2 ^ 53) :
    (ofSize a).tenthBytes ≤ (ofSize b).tenthBytes := by
  rcases hle.eq_or_lt with rfl | hlt
  · exact le_rfl
  · exact tenthBytes_le_of_near (near_ofSize (hlt.trans hb)) (near_ofSize hb) hlt

/-- Numbers of records that differ are near to figures in the same order, in whatever units. -/
theorem CountFigure.docs_le_of_near {a b : ℕ} {x y : CountFigure} (hx : x.Near (some a))
    (hy : y.Near (some b)) (hlt : a < b) : x.docs ≤ y.docs := by
  cases x <;> cases y <;> simp only [Near, docs, abs_le, Nat.cast_le] at hx hy ⊢ <;> omega

theorem CountFigure.docs_ofCount_le {a b : ℕ} (hle : a ≤ b) (hb : b < 2 ^ 53) :
    (ofCount (some a)).docs ≤ (ofCount (some b)).docs := by
  rcases hle.eq_or_lt with rfl | hlt
  · exact le_rfl
  · refine docs_le_of_near (near_ofCount ?_) (near_ofCount ?_) hlt
    · rintro n ⟨⟩
      exact hlt.trans hb
    · rintro n ⟨⟩
      exact hb

/-! ## Entities -/

namespace Entity

variable {e f : Entity}

/-- The figures that are shown for an entity. -/
structure Shows (e : Entity) (size : SizeFigure) (count : CountFigure) : Prop where
  size_text : docSizeText e.capacity.docBytes = size.text
  count_text : freeTierText (e.capacity.freeTierDocs.map fun n : ℕ => (n : ℤ)) = count.text

/-- An entity has one figure of each kind. -/
theorem shows_iff {size : SizeFigure} {count : CountFigure} :
    e.Shows size count ↔
      SizeFigure.ofSize e.capacity.docBytes = size ∧
        CountFigure.ofCount e.capacity.freeTierDocs = count := by
  rw [← SizeFigure.text_injective.eq_iff, ← CountFigure.text_injective.eq_iff, ← docSizeText_eq,
    ← freeTierText_eq]
  exact ⟨fun h => ⟨h.size_text, h.count_text⟩, fun h => ⟨h.1, h.2⟩⟩

theorem freeTierDocs_lt (e : Entity) : ∀ docs ∈ e.capacity.freeTierDocs, docs < 2 ^ 53 := by
  intro docs hdocs
  have hfit : docs * e.capacity.docBytes ≤ freeTierBytes := (isGreatest_of_freeTierDocs hdocs).1
  have hpos : 0 < e.capacity.docBytes := by
    rw [docBytes_pos_iff]
    intro hnil
    rw [freeTierDocs_of_nil hnil] at hdocs
    nomatch hdocs
  calc docs ≤ docs * e.capacity.docBytes := Nat.le_mul_of_pos_right docs hpos
    _ ≤ freeTierBytes := hfit
    _ < 2 ^ 53 := by decide

/-- Larger records have a figure that stands for no more of them. -/
theorem docs_ofCount_le (h : e.capacity.docBytes ≤ f.capacity.docBytes) :
    (CountFigure.ofCount f.capacity.freeTierDocs).docs ≤
      (CountFigure.ofCount e.capacity.freeTierDocs).docs := by
  have hroom := room_le_of_docBytes_le h
  have hbound := e.freeTierDocs_lt
  rw [CapacityEstimate.room, CapacityEstimate.room] at hroom
  generalize e.capacity.freeTierDocs = a at hroom hbound ⊢
  generalize f.capacity.freeTierDocs = b at hroom ⊢
  cases a with
  | none => exact le_top
  | some a =>
    cases b with
    | none => exact absurd (top_le_iff.mp hroom) (ENat.natCast_ne_top a)
    | some b => exact CountFigure.docs_ofCount_le (Nat.cast_le.mp hroom) (hbound a rfl)

end Entity

/-- **Capacity figures.** For every entity whose records take less than `2 ^ 53` bytes there are
figures that are shown, each within half a unit of its last place from the number it is shown for.
For an entity with more fields the size that is shown is no smaller, and the number of records that
is shown is no greater. -/
theorem figures_near_and_ordered :
    (∀ e : Entity, e.capacity.docBytes < 2 ^ 53 →
      ∃ size count, e.Shows size count ∧ size.Near e.capacity.docBytes ∧
        count.Near e.capacity.freeTierDocs) ∧
      ∀ e f : Entity, e.fields.length ≤ f.fields.length → f.capacity.docBytes < 2 ^ 53 →
        ∀ size count size' count', e.Shows size count → f.Shows size' count' →
          size.tenthBytes ≤ size'.tenthBytes ∧ count'.docs ≤ count.docs := by
  refine ⟨fun e hsize => ?_, fun e f hfields hsize size count size' count' he hf => ?_⟩
  · exact ⟨_, _, Entity.shows_iff.mpr ⟨rfl, rfl⟩, SizeFigure.near_ofSize hsize,
      CountFigure.near_ofCount e.freeTierDocs_lt⟩
  · obtain ⟨rfl, rfl⟩ := Entity.shows_iff.mp he
    obtain ⟨rfl, rfl⟩ := Entity.shows_iff.mp hf
    have hbytes : e.capacity.docBytes ≤ f.capacity.docBytes := Nat.mul_le_mul_right 50 hfields
    exact ⟨SizeFigure.tenthBytes_ofSize_le hbytes hsize, Entity.docs_ofCount_le hbytes⟩

/-- Notes with a number of fields. -/
def wideNotes (width : ℕ) : Entity where
  name := "Note"
  fields := List.replicate width { name := "body" }

/-- Between twenty and twenty-two fields the units of both figures change. -/
theorem wideNotes_shown :
    (wideNotes 20).fields.length ≤ (wideNotes 22).fields.length ∧
      (wideNotes 22).capacity.docBytes < 2 ^ 53 ∧
      docSizeText (wideNotes 20).capacity.docBytes = "~1000B" ∧
      docSizeText (wideNotes 22).capacity.docBytes = "~1.1KB" ∧
      (wideNotes 20).Shows (.bytes 1000) (.millions 11) ∧
      (wideNotes 22).Shows (.kilobytes 11) (.thousands 976) ∧
      (SizeFigure.bytes 1000).tenthBytes ≤ (SizeFigure.kilobytes 11).tenthBytes ∧
      (CountFigure.thousands 976).docs ≤ (CountFigure.millions 11).docs := by
  have hfields : (wideNotes 20).fields.length ≤ (wideNotes 22).fields.length := by decide
  have hsize : (wideNotes 22).capacity.docBytes < 2 ^ 53 := by decide
  have hnarrow : (wideNotes 20).Shows (.bytes 1000) (.millions 11) :=
    Entity.shows_iff.mpr ⟨by decide, by decide⟩
  have hwide : (wideNotes 22).Shows (.kilobytes 11) (.thousands 976) :=
    Entity.shows_iff.mpr ⟨by decide, by decide⟩
  exact ⟨hfields, hsize, by decide, by decide, hnarrow, hwide,
    figures_near_and_ordered.2 _ _ hfields hsize _ _ _ _ hnarrow hwide⟩

end DocSchema
