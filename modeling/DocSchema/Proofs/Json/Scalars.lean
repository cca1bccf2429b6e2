import DocSchema.Json.Reader
import Mathlib.Data.List.TakeWhile

/-!
# Reading scalars back

Integers and strings of JSON are written and read character by character. This module shows that
reading undoes writing, whatever follows in the text.

An integer has no mark at its end, so what follows it must not look like a part of a number:
`EndsNumber`. A string has a closing quote, and anything may follow.

## Main definitions

* `EndsNumber`

## Main results

* `number?_intChars`
* `string?_flatMap`
-/

namespace DocSchema.Json

open Number (Binary64 digitChars)

/-! ## Integers -/

/-- What stands behind a number does not go on with it. -/
def EndsNumber (rest : List Char) : Prop :=
  ∀ c ∈ rest.head?, c.isDigit = false ∧ c ≠ '.' ∧ c ≠ 'e' ∧ c ≠ 'E'

theorem endsNumber_nil : EndsNumber [] := by
  intro c hc
  cases hc

theorem endsNumber_cons {c : Char} {rest : List Char} (hdigit : c.isDigit = false)
    (hc : c ≠ '.' ∧ c ≠ 'e' ∧ c ≠ 'E') : EndsNumber (c :: rest) := by
  intro d hd
  obtain rfl : c = d := Option.some.inj hd
  exact ⟨hdigit, hc⟩

theorem digitsValue_digitChars (n : Nat) : Binary64.digitsValue (digitChars n) = n := by
  have h := Nat.ofDigitChars_toDigits (b := 10) (n := n) (by decide) (by decide)
  rwa [Nat.ofDigitChars_eq_foldl] at h

/-- Zeros in front count nothing. -/
theorem digitsValue_replicate (k : Nat) (cs : List Char) :
    Binary64.digitsValue (List.replicate k '0' ++ cs) = Binary64.digitsValue cs := by
  induction k with
  | zero => rfl
  | succ k ih =>
    rw [← ih]
    rfl

theorem isDigit_of_mem_digitChars {n : Nat} {c : Char} (h : c ∈ digitChars n) :
    c.isDigit = true :=
  Nat.isDigit_of_mem_toDigits (by decide) (by decide) h

theorem digitChars_ne_nil (n : Nat) : digitChars n ≠ [] := Nat.toDigits_ne_nil

/-- Only zero is written with a zero in front. -/
theorem head?_digitChars_ne_zero {n : Nat} (h : n ≠ 0) : (digitChars n).head? ≠ some '0' := by
  induction n using Nat.strongRecOn with
  | ind n ih =>
    unfold digitChars at ih ⊢
    by_cases hlt : n < 10
    · rw [Nat.toDigits_of_lt_base hlt, List.head?_singleton]
      intro hzero
      exact h ((Nat.digitChar_eq_zero).mp (Option.some.inj hzero))
    · have hhead : (Nat.toDigits 10 n).head? = (Nat.toDigits 10 (n / 10)).head? := by
        obtain ⟨d, ds, hd⟩ :=
          List.exists_cons_of_ne_nil (Nat.toDigits_ne_nil (n := n / 10) (b := 10))
        rw [Nat.toDigits_of_base_le (by decide) (by omega), hd]
        rfl
      rw [hhead]
      exact ih (n / 10) (by omega) (by omega)

/-- The digits of a number are a run that ends where the number does. -/
theorem takeWhile_digitChars (n : Nat) {rest : List Char} (h : EndsNumber rest) :
    (digitChars n ++ rest).takeWhile Char.isDigit = digitChars n ∧
      (digitChars n ++ rest).dropWhile Char.isDigit = rest := by
  have hall : ∀ c ∈ digitChars n, c.isDigit = true := fun _ => isDigit_of_mem_digitChars
  rw [List.takeWhile_append_of_pos hall, List.dropWhile_append_of_pos hall]
  cases rest with
  | nil => simp
  | cons c rest => simp [(h c rfl).1]

/-- Digits are accepted as an integer: there are some, and no zero leads them. -/
theorem digitChars_accepted (n : Nat) :
    ((digitChars n).isEmpty ||
      ((digitChars n).head? == some '0' && (digitChars n).length != 1)) = false := by
  have hne : (digitChars n).isEmpty = false := List.isEmpty_eq_false_iff.mpr (digitChars_ne_nil n)
  by_cases hn : n = 0
  · subst hn
    rfl
  · have hhead : ((digitChars n).head? == some '0') = false :=
      beq_eq_false_iff_ne.mpr (head?_digitChars_ne_zero hn)
    rw [hne, hhead]
    rfl

theorem number?_digitChars (n : Nat) {rest : List Char} (h : EndsNumber rest) :
    number? (digitChars n ++ rest) = some (int n, rest) ∧
      number? ('-' :: (digitChars n ++ rest)) = some (int (-n), rest) := by
  obtain ⟨htake, hdrop⟩ := takeWhile_digitChars n h
  have hminus : ∀ cs, digitChars n ++ rest ≠ '-' :: cs := by
    intro cs heq
    obtain ⟨d, ds, hd⟩ := List.exists_cons_of_ne_nil (digitChars_ne_nil n)
    have hdigit : d.isDigit = true :=
      isDigit_of_mem_digitChars (n := n) (hd ▸ List.mem_cons_self)
    rw [hd] at heq
    rw [(List.cons.inj heq).1] at hdigit
    cases hdigit
  constructor
  · rw [number?.eq_def]
    split
    rename_i hsign
    split at hsign
    · exact absurd ‹_› (hminus _)
    · cases hsign
      simp only [htake, hdrop, digitChars_accepted, digitsValue_digitChars]
      cases rest with
      | nil => rfl
      | cons c rest =>
        obtain ⟨-, hpoint, he, hE⟩ := h c rfl
        simp [hpoint, he, hE]
  · rw [number?]
    simp only [htake, hdrop, digitChars_accepted, digitsValue_digitChars]
    cases rest with
    | nil => rfl
    | cons c rest =>
      obtain ⟨-, hpoint, he, hE⟩ := h c rfl
      simp [hpoint, he, hE]

/-- An integer is read back, with what follows it. -/
theorem number?_intChars (n : Int) {rest : List Char} (h : EndsNumber rest) :
    number? (intChars n ++ rest) = some (int n, rest) := by
  obtain ⟨hpos, hneg⟩ := number?_digitChars n.natAbs h
  by_cases hn : n < 0
  · rw [intChars, if_pos hn, List.append_assoc, List.singleton_append, hneg,
      Int.ofNat_natAbs_of_nonpos (by omega), Int.neg_neg]
  · rw [intChars, if_neg hn, List.nil_append, hpos, Int.natAbs_of_nonneg (by omega)]

/-! ## Strings -/

/-- The digits of a control character. -/
theorem hexChars_of_lt : ∀ n < 32,
    Text.hexChars 4 n = ['0', '0', Nat.digitChar (n / 16), Nat.digitChar (n % 16)] := by
  decide

theorem hexDigit?_digitChar : ∀ d < 16, Text.hexDigit? (Nat.digitChar d) = some d := by
  decide

theorem codeUnit?_hexChars {n : Nat} (h : n < 32) (rest : List Char) :
    codeUnit? (Text.hexChars 4 n ++ rest) = some (n, rest) := by
  have hzero : Text.hexDigit? '0' = some 0 := by decide
  have hvalue : ((0 * 16 + 0) * 16 + n / 16) * 16 + n % 16 = n := by omega
  rw [hexChars_of_lt n h]
  simp only [List.cons_append, List.nil_append, codeUnit?, hzero,
    hexDigit?_digitChar (n / 16) (by omega), hexDigit?_digitChar (n % 16) (by omega)]
  simp only [Option.bind_eq_bind, Option.bind_some, Option.pure_def, hvalue]

/-- A character that is escaped is read back from behind its backslash. -/
theorem stringBody?_escapedChar (fuel : Nat) (read : List Char) (c : Char) (rest : List Char) :
    stringBody? (fuel + 1) read (escapedChar c ++ rest) = stringBody? fuel (c :: read) rest := by
  unfold escapedChar
  split_ifs with hquote hback hline hreturn htab hbackspace hfeed hcontrol
  · subst hquote
    rfl
  · subst hback
    rfl
  · subst hline
    rfl
  · subst hreturn
    rfl
  · subst htab
    rfl
  · obtain rfl : c = Char.ofNat 8 := by rw [← hbackspace, Char.ofNat_toNat]
    rfl
  · obtain rfl : c = Char.ofNat 12 := by rw [← hfeed, Char.ofNat_toNat]
    rfl
  · have hchar : unitChar? c.toNat rest = some (c, rest) := by
      rw [unitChar?.eq_def, if_neg (by omega), if_neg (by omega), Char.ofNat_toNat]
    simp [stringBody?, escape?, codeUnit?_hexChars hcontrol, hchar]
  · simp [stringBody?, hquote, hback, hcontrol]

/-- The characters of a string are read up to its closing quote, on top of those that have been
read before. -/
theorem stringBody?_flatMap (cs : List Char) {fuel : Nat} (read rest : List Char)
    (h : cs.length < fuel) :
    stringBody? fuel read (cs.flatMap escapedChar ++ '"' :: rest) =
      some (read.reverse ++ cs, rest) := by
  induction cs generalizing fuel read with
  | nil =>
    obtain ⟨fuel, rfl⟩ : ∃ m, fuel = m + 1 := ⟨fuel - 1, by omega⟩
    simp [stringBody?]
  | cons c cs ih =>
    obtain ⟨fuel, rfl⟩ : ∃ m, fuel = m + 1 := ⟨fuel - 1, by omega⟩
    rw [List.flatMap_cons, List.append_assoc, stringBody?_escapedChar,
      ih (c :: read) (by simpa using h), List.reverse_cons, List.append_assoc]
    rfl

theorem length_le_length_flatMap_escapedChar (cs : List Char) :
    cs.length ≤ (cs.flatMap escapedChar).length := by
  have hone : ∀ c, 1 ≤ (escapedChar c).length := by
    intro c
    unfold escapedChar
    split_ifs <;> simp
  induction cs with
  | nil => rfl
  | cons c cs ih =>
    have := hone c
    rw [List.flatMap_cons, List.length_append, List.length_cons]
    omega

/-- A string is read back from behind its opening quote, with what follows it. -/
theorem string?_flatMap (s : String) (rest : List Char) :
    string? (s.toList.flatMap escapedChar ++ '"' :: rest) = some (s, rest) := by
  have hfuel : s.toList.length <
      (s.toList.flatMap escapedChar ++ '"' :: rest).length + 1 := by
    have := length_le_length_flatMap_escapedChar s.toList
    rw [List.length_append]
    omega
  rw [string?, stringBody?_flatMap s.toList [] rest hfuel, List.reverse_nil, List.nil_append,
    Option.map_some]
  show some (String.ofList s.toList, rest) = _
  rw [String.ofList_toList]

end DocSchema.Json
