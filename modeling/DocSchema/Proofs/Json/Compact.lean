import DocSchema.Proofs.Json.Grammar

/-!
# JSON on one line

## Main results

* `newline_notMem_compactChars`: a value on one line has no line feed
-/

namespace DocSchema.Json

open Grammar (IsDigits IsExponent IsFraction IsNumber IsWhole)
open Number (Binary64)

/-! ## Characters of numbers -/

/-- A character that numbers are made of. -/
def IsNumberChar (c : Char) : Prop := c.isDigit = true ∨ c ∈ ['-', '+', '.', 'e', 'E']

instance (c : Char) : Decidable (IsNumberChar c) := inferInstanceAs (Decidable (_ ∨ _))

theorem Grammar.IsDigits.isNumberChar {cs : List Char} (h : IsDigits cs) :
    ∀ c ∈ cs, IsNumberChar c := fun c hc => .inl (h.isDigit c hc)

theorem Grammar.IsWhole.isNumberChar {cs : List Char} (h : IsWhole cs) :
    ∀ c ∈ cs, IsNumberChar c := by
  cases h with
  | zero => exact List.forall_mem_singleton.mpr (.inl rfl)
  | digits hdigits _ => exact hdigits.isNumberChar

theorem Grammar.IsFraction.isNumberChar {cs : List Char} (h : IsFraction cs) :
    ∀ c ∈ cs, IsNumberChar c := by
  cases h with
  | none => exact List.forall_mem_nil _
  | digits hdigits => exact List.forall_mem_cons.mpr ⟨.inr (by simp), hdigits.isNumberChar⟩

theorem isNumberChar_of_mem_signs {sign : List Char} (h : sign ∈ [[], ['+'], ['-']]) :
    ∀ c ∈ sign, IsNumberChar c := by
  simp only [List.mem_cons, List.not_mem_nil, or_false] at h
  rcases h with rfl | rfl | rfl
  · exact List.forall_mem_nil _
  · exact List.forall_mem_singleton.mpr (.inr (by simp))
  · exact List.forall_mem_singleton.mpr (.inr (by simp))

theorem Grammar.IsExponent.isNumberChar {cs : List Char} (h : IsExponent cs) :
    ∀ c ∈ cs, IsNumberChar c := by
  cases h with
  | none => exact List.forall_mem_nil _
  | digits hmark hsign hdigits =>
    refine List.forall_mem_cons.mpr ⟨.inr (List.mem_of_mem_drop (i := 3) hmark), ?_⟩
    exact List.forall_mem_append.mpr ⟨isNumberChar_of_mem_signs hsign, hdigits.isNumberChar⟩

theorem Grammar.IsNumber.isNumberChar {cs : List Char} (h : IsNumber cs) :
    ∀ c ∈ cs, IsNumberChar c := by
  cases h with
  | parts hsign hwhole hfraction hexponent =>
    simp only [List.forall_mem_append]
    refine ⟨⟨⟨isNumberChar_of_mem_signs ?_, hwhole.isNumberChar⟩, hfraction.isNumberChar⟩,
      hexponent.isNumberChar⟩
    simp only [List.mem_cons, List.not_mem_nil, or_false] at hsign ⊢
    exact hsign.imp_right .inr

theorem newline_notMem_of_isNumberChar {cs : List Char} (h : ∀ c ∈ cs, IsNumberChar c) :
    '\n' ∉ cs := fun hmem => absurd (h _ hmem) (by decide)

/-! ## Line feeds -/

theorem newline_notMem_floatChars (x : Binary64) : '\n' ∉ floatChars x := by
  cases x with
  | nan => decide
  | infinite negative => cases negative <;> decide
  | finite negative magnitude =>
    exact newline_notMem_of_isNumberChar (isNumber_floatChars negative magnitude).isNumberChar

theorem newline_notMem_escapedChar (c : Char) : '\n' ∉ escapedChar c := by
  unfold escapedChar
  split_ifs with hquote hback hline hreturn htab hbackspace hfeed hcontrol
  · decide
  · decide
  · decide
  · decide
  · decide
  · decide
  · decide
  · rw [hexChars_of_lt c.toNat hcontrol]
    have hdigit : ∀ d < 16, '\n' ≠ Nat.digitChar d := by decide
    simp [hdigit (c.toNat / 16) (by omega), hdigit (c.toNat % 16) (by omega)]
  · simpa using Ne.symm hline

theorem newline_notMem_textChars (s : String) : '\n' ∉ textChars s := by
  rw [textChars, List.mem_cons, List.mem_append, List.mem_flatMap]
  rintro (h | ⟨c, -, hc⟩ | h)
  · exact absurd h (by decide)
  · exact newline_notMem_escapedChar c hc
  · exact absurd h (by decide)

mutual

/-- A value on one line is on one line. -/
theorem newline_notMem_compactChars : ∀ j : Json, '\n' ∉ compactChars j
  | .null => by decide
  | .bool true => by decide
  | .bool false => by decide
  | .int n => newline_notMem_of_isNumberChar (isNumber_intChars n).isNumberChar
  | .float x => newline_notMem_floatChars x
  | .text s => newline_notMem_textChars s
  | .list items => by simp [compactChars, newline_notMem_compactItems items]
  | .object members => by simp [compactChars, newline_notMem_compactMembers members]

theorem newline_notMem_compactItems : ∀ items : List Json, '\n' ∉ compactItems items
  | [] => by simp [compactItems]
  | [item] => newline_notMem_compactChars item
  | item :: next :: items => by
    simp [compactItems, newline_notMem_compactChars item,
      newline_notMem_compactItems (next :: items)]

theorem newline_notMem_compactMembers : ∀ members : List (String × Json),
    '\n' ∉ compactMembers members
  | [] => by simp [compactMembers]
  | [(key, value)] => by
    simp [compactMembers, newline_notMem_textChars key, newline_notMem_compactChars value]
  | (key, value) :: next :: members => by
    simp [compactMembers, newline_notMem_textChars key, newline_notMem_compactChars value,
      newline_notMem_compactMembers (next :: members)]

end

end DocSchema.Json
