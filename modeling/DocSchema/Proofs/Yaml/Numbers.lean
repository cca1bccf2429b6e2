import DocSchema.Proofs.Json.Reading
import DocSchema.Proofs.Yaml.Plain
import DocSchema.Yaml.Reader

/-!
# Portable numbers as plain texts

A plain text has the tag of a number by its form, and then the number is read from its characters
once more. A portable number of JSON goes through both to the value that JSON gives it.

## Main results

* `Scalar.int_eq`, `Scalar.float_eq`: the values of the spellings
* `ofPlain_int`, `ofPlain_float`: their tags
-/

namespace DocSchema.Yaml

open Json.Portable (IsExponent signChars isDigit_of_isWhole takeWhile_isDigit)
open Json.Grammar (IsDigits IsWhole)
open Number (Binary64)

-- Decisions about the members of a list go through the list and not through all characters.
attribute [local instance (2000)] List.decidableBAll

/-! ## Digits -/

theorem toNat_of_isDigit {c : Char} (h : c.isDigit = true) : 48 ≤ c.toNat ∧ c.toNat ≤ 57 := by
  simp only [Char.isDigit, Bool.and_eq_true, decide_eq_true_eq, ge_iff_le,
    UInt32.le_iff_toNat_le] at h
  exact h

theorem ne_of_isDigit {c d : Char} (h : c.isDigit = true) (hd : d.isDigit = false) : c ≠ d := by
  rintro rfl
  rw [h] at hd
  cases hd

theorem isBlankChar_of_isDigit {c : Char} (h : c.isDigit = true) : Text.isBlankChar c = false := by
  have hcode := toNat_of_isDigit h
  simp only [Text.isBlankChar, Bool.or_eq_false_iff, Bool.and_eq_false_iff, decide_eq_false_iff_not,
    beq_eq_false_iff_ne]
  omega

/-- Nothing is trimmed from what starts and ends with a digit. -/
theorem stripChars_eq_self {cs : List Char} (hhead : ∀ c ∈ cs.head?, c.isDigit = true)
    (hlast : ∀ c ∈ cs.getLast?, c.isDigit = true) : Text.stripChars cs = cs := by
  have hkeep : ∀ ds : List Char, (∀ c ∈ ds.head?, c.isDigit = true) →
      ds.dropWhile Text.isBlankChar = ds := by
    intro ds hds
    cases ds with
    | nil => rfl
    | cons d ds =>
      have hd := isBlankChar_of_isDigit (hds d rfl)
      rw [List.dropWhile_cons_of_neg (by rw [hd]; exact Bool.false_ne_true)]
  rw [Text.stripChars, hkeep cs hhead, hkeep cs.reverse (by rwa [List.head?_reverse]),
    List.reverse_reverse]

theorem takeSign_of_isDigit {c : Char} (h : c.isDigit = true) (cs : List Char) :
    Binary64.takeSign (c :: cs) = (false, c :: cs) := by
  unfold Binary64.takeSign
  split
  · next heq => exact absurd (List.cons.inj heq).1 (ne_of_isDigit h rfl)
  · next heq => exact absurd (List.cons.inj heq).1 (ne_of_isDigit h rfl)
  · rfl

/-! ## Integers -/

theorem digit?_of_isDigit {c : Char} (h : c.isDigit = true) :
    Scalar.digit? 10 c = some (c.toNat - '0'.toNat) := by
  have hcode := toNat_of_isDigit h
  have hzero : '0'.toNat = 48 := rfl
  have hhex : Text.hexDigit? c = some (c.toNat - 48) := by
    simp only [Text.hexDigit?]
    rw [if_pos hcode]
  rw [Scalar.digit?, hhex, hzero]
  dsimp only
  rw [if_pos (by omega)]

theorem mapM_digit? {cs : List Char} (h : ∀ c ∈ cs, c.isDigit = true) :
    cs.mapM (Scalar.digit? 10) = some (cs.map fun c => c.toNat - '0'.toNat) := by
  induction cs with
  | nil => rfl
  | cons c cs ih =>
    rw [List.forall_mem_cons] at h
    rw [List.mapM_cons, digit?_of_isDigit h.1, ih h.2]
    rfl

theorem dropBaseMark_ten (cs : List Char) : Scalar.dropBaseMark 10 cs = cs := by
  rw [Scalar.dropBaseMark.eq_def]
  split
  · rfl
  · rfl

/-- Digits are an integer in base ten, unless there are too many. -/
theorem integer_of_isDigits {cs : List Char} (h : IsDigits cs) (hlength : cs.length ≤ 4300) :
    Scalar.integer 10 cs = .ok (Binary64.digitsValue cs : Int) := by
  have hstrip : Text.stripChars cs = cs :=
    stripChars_eq_self (fun c hc => h.isDigit c (List.mem_of_mem_head? hc))
      fun c hc => h.isDigit c (List.mem_of_getLast? hc)
  have hsign : Binary64.takeSign cs = (false, cs) := by
    obtain ⟨c, rest, rfl⟩ := List.exists_cons_of_ne_nil h.ne_nil
    exact takeSign_of_isDigit (h.isDigit c List.mem_cons_self) rest
  have hempty : cs.isEmpty = false := List.isEmpty_eq_false_iff.mpr h.ne_nil
  have hshort : decide (4300 < cs.length) = false := by
    rw [decide_eq_false_iff_not]
    omega
  have hvalue : ∀ n, (cs.map fun c => c.toNat - '0'.toNat).foldl (fun value d => value * 10 + d) n =
      cs.foldl (fun value c => 10 * value + (c.toNat - '0'.toNat)) n := by
    intro n
    rw [List.foldl_map]
    congr 1
    funext value c
    omega
  rw [Scalar.integer, hstrip, hsign]
  dsimp only
  rw [dropBaseMark_ten, hempty, hshort, Bool.and_false, mapM_digit? h.isDigit]
  dsimp only
  rw [hvalue]
  rfl

theorem notMem_of_isDigits {cs : List Char} (h : IsDigits cs) {d : Char} (hd : d.isDigit = false) :
    d ∉ cs := fun hmem => ne_of_isDigit (h.isDigit d hmem) hd rfl

theorem unsigned_of_isWhole {cs : List Char} (h : IsWhole cs) (hlength : cs.length ≤ 4300) :
    Scalar.unsigned cs = .ok (Binary64.digitsValue cs : Int) := by
  cases h with
  | zero => rfl
  | digits h hhead =>
    obtain ⟨c, rest, rfl⟩ := List.exists_cons_of_ne_nil h.ne_nil
    have hc : c ≠ '0' := fun hc => hhead (congrArg some hc)
    have hcolon : (c :: rest).contains ':' = false := by
      rw [List.contains_eq_mem, decide_eq_false_iff_not]
      exact notMem_of_isDigits h rfl
    rw [Scalar.unsigned.eq_def]
    split
    · next heq => cases heq
    · next heq => exact absurd (List.cons.inj heq).1 hc
    · next heq => exact absurd (List.cons.inj heq).1 hc
    · next heq => exact absurd (List.cons.inj heq).1 hc
    · next heq => exact absurd (List.cons.inj heq).1 hc
    · rw [hcolon, if_neg Bool.false_ne_true, integer_of_isDigits h hlength]

/-- Words hold no underscores, so none are dropped. -/
theorem dropUnderscores_eq_self {cs : List Char} (h : ∀ c ∈ cs, isWordChar c = true) :
    Scalar.dropUnderscores cs = cs := by
  rw [Scalar.dropUnderscores, List.filter_eq_self]
  intro c hc
  rw [bne_iff_ne]
  exact isWordChar_ne (h c hc) rfl

theorem isWordChar_signChars (negative : Bool) : ∀ c ∈ signChars negative, isWordChar c = true := by
  cases negative <;> decide

theorem isWordChar_int (negative : Bool) {digits : List Char} (h : IsDigits digits) :
    ∀ c ∈ signChars negative ++ digits, isWordChar c = true :=
  List.forall_mem_append.mpr ⟨isWordChar_signChars negative,
    fun c hc => isWordChar_of_isDigit (h.isDigit c hc)⟩

theorem Scalar.int_eq (negative : Bool) {digits : List Char} (h : IsWhole digits)
    (hlength : digits.length ≤ 4300) :
    Scalar.int (String.ofList (signChars negative ++ digits)) =
      .ok (if negative then -(Binary64.digitsValue digits : Int) else Binary64.digitsValue digits) := by
  have hdigits := isDigit_of_isWhole h
  have hword := isWordChar_int negative hdigits
  have hvalue := unsigned_of_isWhole h hlength
  rw [Scalar.int, String.toList_ofList, dropUnderscores_eq_self hword]
  cases negative with
  | true =>
    rw [signChars, if_pos rfl, List.singleton_append]
    show (Scalar.unsigned digits).map (- ·) = _
    rw [hvalue]
    rfl
  | false =>
    obtain ⟨c, rest, rfl⟩ := List.exists_cons_of_ne_nil hdigits.ne_nil
    have hc := hdigits.isDigit c List.mem_cons_self
    rw [signChars, if_neg Bool.false_ne_true, List.nil_append]
    split
    · next heq => cases heq
    · next heq => exact absurd (List.cons.inj heq).1 (ne_of_isDigit hc rfl)
    · next heq => exact absurd (List.cons.inj heq).1 (ne_of_isDigit hc rfl)
    · exact hvalue

/-! ## Floating point numbers -/

theorem neg_ofDecimal (negative : Bool) (digits : Nat) (exponent : Int) :
    (Binary64.ofDecimal negative digits exponent).neg =
      Binary64.ofDecimal (!negative) digits exponent := by
  have hratio : ∀ num den, (Binary64.ofRatio negative num den).neg =
      Binary64.ofRatio (!negative) num den := by
    intro num den
    simp only [Binary64.ofRatio]
    split_ifs <;> rfl
  simp only [Binary64.ofDecimal]
  split_ifs
  · exact hratio _ _
  · rfl
  · exact hratio _ _
  · exact hratio _ _
  · exact hratio _ _

/-- A run of digits ends where neither a digit nor an underscore follows. -/
theorem takeRun_eq {cs rest : List Char} (h : IsDigits cs)
    (hrest : ∀ c ∈ rest.head?, c.isDigit = false ∧ c ≠ '_') :
    Binary64.takeRun (cs ++ rest) = (cs, rest) := by
  have hend : Binary64.takeDigits rest = ([], rest) := by
    cases rest with
    | nil => rfl
    | cons c rest =>
      obtain ⟨hdigit, hc⟩ := hrest c rfl
      unfold Binary64.takeDigits
      split
      · next heq => cases heq
      · next heq => exact absurd (List.cons.inj heq).1 hc
      · next heq =>
        obtain ⟨rfl, rfl⟩ := List.cons.inj heq
        rw [hdigit, if_neg Bool.false_ne_true]
  have hdigits : ∀ ds : List Char, (∀ c ∈ ds, c.isDigit = true) →
      Binary64.takeDigits (ds ++ rest) = (ds, rest) := by
    intro ds hds
    induction ds with
    | nil => exact hend
    | cons d ds ih =>
      rw [List.forall_mem_cons] at hds
      rw [List.cons_append]
      unfold Binary64.takeDigits
      split
      · next heq => cases heq
      · next heq => exact absurd (List.cons.inj heq).1 (ne_of_isDigit hds.1 rfl)
      · next heq =>
        obtain ⟨rfl, rfl⟩ := List.cons.inj heq
        rw [hds.1, if_pos rfl, ih hds.2]
  obtain ⟨c, ds, rfl⟩ := List.exists_cons_of_ne_nil h.ne_nil
  have hc : (c :: ds ++ rest).head?.any Char.isDigit = true := h.isDigit c List.mem_cons_self
  rw [Binary64.takeRun, hc, if_pos rfl, hdigits _ h.isDigit]

theorem exponentValue?_eq {cs : List Char} {e : Int} (h : IsExponent cs e) :
    Binary64.exponentValue? cs = some e := by
  have hrun : ∀ ds : List Char, IsDigits ds → Binary64.takeRun ds = (ds, []) := by
    intro ds hds
    have htake := @takeRun_eq ds [] hds nofun
    rwa [List.append_nil] at htake
  cases h with
  | none => rfl
  | @positive mark cs hmark hdigits =>
    have hmark : mark = 'e' ∨ mark = 'E' := by simpa using hmark
    obtain ⟨c, ds, rfl⟩ := List.exists_cons_of_ne_nil hdigits.ne_nil
    rw [Binary64.exponentValue?, if_pos hmark, Binary64.takeSign]
    dsimp only
    rw [hrun _ hdigits]
    rfl
  | @negative mark cs hmark hdigits =>
    have hmark : mark = 'e' ∨ mark = 'E' := by simpa using hmark
    obtain ⟨c, ds, rfl⟩ := List.exists_cons_of_ne_nil hdigits.ne_nil
    rw [Binary64.exponentValue?, if_pos hmark, Binary64.takeSign]
    dsimp only
    rw [hrun _ hdigits]
    rfl

/-- An exponent opens with neither a digit nor an underscore. -/
theorem IsExponent.head_ne {cs : List Char} {e : Int} (h : IsExponent cs e) :
    ∀ c ∈ cs.head?, c.isDigit = false ∧ c ≠ '_' := by
  have hmark : ∀ mark ∈ ['e', 'E'], mark.isDigit = false ∧ mark ≠ '_' := by decide
  cases h with
  | none => nofun
  | positive h _ =>
    rintro _ ⟨⟩
    exact hmark _ h
  | negative h _ =>
    rintro _ ⟨⟩
    exact hmark _ h

/-- An exponent ends with a digit, if there is one. -/
theorem IsExponent.last_isDigit {cs : List Char} {e : Int} (h : IsExponent cs e) :
    ∀ c ∈ cs.getLast?, c.isDigit = true := by
  have hlast : ∀ (mark sign : Char) (ds : List Char), IsDigits ds →
      ∀ c ∈ (mark :: sign :: ds).getLast?, c.isDigit = true := by
    intro mark sign ds hds c hc
    obtain ⟨d, ds, rfl⟩ := List.exists_cons_of_ne_nil hds.ne_nil
    rw [List.getLast?_cons_cons, List.getLast?_cons_cons] at hc
    exact hds.isDigit c (List.mem_of_getLast? hc)
  cases h with
  | none => nofun
  | positive _ h => exact hlast _ _ _ h
  | negative _ h => exact hlast _ _ _ h

section Float

variable {whole places exponent : List Char} {e : Int} (hwhole : IsWhole whole)
  (hplaces : IsDigits places) (hexponent : IsExponent exponent e)

include hwhole hplaces hexponent

theorem parseMagnitude?_eq (negative : Bool) :
    Binary64.parseMagnitude? negative (whole ++ '.' :: (places ++ exponent)) =
      some (Binary64.ofDecimal negative (Binary64.digitsValue (whole ++ places))
        (e - places.length)) := by
  have hdigits := isDigit_of_isWhole hwhole
  have hwholeRun := @takeRun_eq _ ('.' :: (places ++ exponent)) hdigits
    (by rintro _ ⟨⟩; decide)
  have hplacesRun := takeRun_eq hplaces (IsExponent.head_ne hexponent)
  have hempty : whole.isEmpty = false := List.isEmpty_eq_false_iff.mpr hdigits.ne_nil
  simp only [Binary64.parseMagnitude?, hwholeRun, hplacesRun, hempty, exponentValue?_eq hexponent]
  rfl

theorem decimal_eq : Scalar.decimal (whole ++ '.' :: (places ++ exponent)) =
    .ok (Binary64.ofDecimal false (Binary64.digitsValue (whole ++ places)) (e - places.length)) := by
  have hdigits := isDigit_of_isWhole hwhole
  have hmagnitude := parseMagnitude?_eq hwhole hplaces hexponent false
  have hstrip : Text.stripChars (whole ++ '.' :: (places ++ exponent)) =
      whole ++ '.' :: (places ++ exponent) := by
    refine stripChars_eq_self (fun c hc => ?_) fun c hc => ?_
    · obtain ⟨d, ds, rfl⟩ := List.exists_cons_of_ne_nil hdigits.ne_nil
      obtain rfl : d = c := Option.some.inj hc
      exact hdigits.isDigit d List.mem_cons_self
    · obtain ⟨d, ds, rfl⟩ := List.exists_cons_of_ne_nil hplaces.ne_nil
      have hlast : c ∈ (d :: ds ++ exponent).getLast? := by
        rwa [List.getLast?_append_of_ne_nil _ (List.cons_ne_nil _ _), List.cons_append,
          List.getLast?_cons_cons] at hc
      cases exponent with
      | nil =>
        rw [List.append_nil] at hlast
        exact hplaces.isDigit c (List.mem_of_getLast? hlast)
      | cons mark exponent =>
        rw [List.getLast?_append_of_ne_nil _ (List.cons_ne_nil _ _)] at hlast
        exact IsExponent.last_isDigit hexponent c hlast
  obtain ⟨d, ds, rfl⟩ := List.exists_cons_of_ne_nil hdigits.ne_nil
  have hd := hdigits.isDigit d List.mem_cons_self
  have hname : ∀ name : String, (∃ c rest, name.toList = c :: rest ∧ c.isDigit = false) →
      String.ofList (((d :: ds) ++ '.' :: (places ++ exponent)).map Char.toLower) ≠ name := by
    rintro name ⟨c, rest, hname, hc⟩ rfl
    rw [String.toList_ofList, List.cons_append, List.map_cons] at hname
    have hlower : d.toLower = d := by
      have hcode := toNat_of_isDigit hd
      refine dif_neg ?_
      rintro ⟨hle, -⟩
      have : 65 ≤ d.toNat := hle
      omega
    rw [hlower] at hname
    exact ne_of_isDigit hd hc (List.cons.inj hname).1
  rw [Scalar.decimal, hstrip, Binary64.parse?, List.cons_append, takeSign_of_isDigit hd]
  dsimp only
  rw [← List.cons_append, if_neg, if_neg (hname "nan" ⟨'n', _, rfl, rfl⟩), hmagnitude]
  exact not_or.mpr ⟨hname "inf" ⟨'i', _, rfl, rfl⟩, hname "infinity" ⟨'i', _, rfl, rfl⟩⟩

/-! ### Lower case -/

omit hwhole hplaces hexponent in
/-- The lower case of a character of the first 128. -/
theorem lowerFrom_of_ascii {cs : List Char} (h : ∀ c ∈ cs, c.toNat < 128) (afterCased : Bool) :
    Text.lowerFrom afterCased cs = cs.map fun c => Char.ofNat (Text.lowerCodePoint c.toNat) := by
  induction cs generalizing afterCased with
  | nil => rfl
  | cons c cs ih =>
    rw [List.forall_mem_cons] at h
    rw [Text.lowerFrom, ih h.2, if_neg (by omega), Text.lowerLetter, if_neg (by omega)]
    rfl

omit hwhole hplaces hexponent in
theorem lower_of_isDigit {c : Char} (h : c.isDigit = true) :
    Char.ofNat (Text.lowerCodePoint c.toNat) = c := by
  have hcode := toNat_of_isDigit h
  have hlower : Text.lowerCodePoint c.toNat = c.toNat := by
    rw [Text.lowerCodePoint, if_pos (by omega), if_neg]
    simp only [Bool.and_eq_true, decide_eq_true_eq]
    omega
  rw [hlower, Char.ofNat_toNat]

omit hwhole hplaces hexponent in
theorem map_lower_of_isDigits {cs : List Char} (h : IsDigits cs) :
    (cs.map fun c => Char.ofNat (Text.lowerCodePoint c.toNat)) = cs := by
  conv_rhs => rw [← List.map_id cs]
  exact List.map_congr_left fun c hc => lower_of_isDigit (h.isDigit c hc)

omit hwhole hplaces in
/-- An exponent in lower case is the same exponent. -/
theorem isExponent_map_lower :
    IsExponent (exponent.map fun c => Char.ofNat (Text.lowerCodePoint c.toNat)) e := by
  have hmarks : ∀ mark ∈ ['e', 'E'], Char.ofNat (Text.lowerCodePoint mark.toNat) ∈ ['e', 'E'] := by
    decide
  cases hexponent with
  | none => exact .none
  | positive hmark hdigits =>
    rw [List.map_cons, List.map_cons, map_lower_of_isDigits hdigits]
    exact .positive (hmarks _ hmark) hdigits
  | negative hmark hdigits =>
    rw [List.map_cons, List.map_cons, map_lower_of_isDigits hdigits]
    exact .negative (hmarks _ hmark) hdigits

omit hwhole hplaces in
theorem isWordChar_exponent : ∀ c ∈ exponent, isWordChar c = true := by
  have hmarks : ∀ mark ∈ ['e', 'E'], isWordChar mark = true := by decide
  cases hexponent with
  | none => nofun
  | positive hmark hdigits =>
    exact List.forall_mem_cons.mpr ⟨hmarks _ hmark, List.forall_mem_cons.mpr
      ⟨rfl, fun c hc => isWordChar_of_isDigit (hdigits.isDigit c hc)⟩⟩
  | negative hmark hdigits =>
    exact List.forall_mem_cons.mpr ⟨hmarks _ hmark, List.forall_mem_cons.mpr
      ⟨rfl, fun c hc => isWordChar_of_isDigit (hdigits.isDigit c hc)⟩⟩

theorem isWordChar_float (negative : Bool) :
    ∀ c ∈ signChars negative ++ (whole ++ '.' :: (places ++ exponent)), isWordChar c = true := by
  refine List.forall_mem_append.mpr ⟨isWordChar_signChars negative, List.forall_mem_append.mpr
    ⟨fun c hc => isWordChar_of_isDigit ((isDigit_of_isWhole hwhole).isDigit c hc),
      List.forall_mem_cons.mpr ⟨rfl, List.forall_mem_append.mpr
        ⟨fun c hc => isWordChar_of_isDigit (hplaces.isDigit c hc), isWordChar_exponent hexponent⟩⟩⟩⟩

theorem unsignedFloat_eq : Scalar.unsignedFloat (whole ++ '.' :: (places ++ exponent)) =
    .ok (Binary64.ofDecimal false (Binary64.digitsValue (whole ++ places)) (e - places.length)) := by
  have hdigits := isDigit_of_isWhole hwhole
  have hcolon : (whole ++ '.' :: (places ++ exponent)).contains ':' = false := by
    rw [List.contains_eq_mem, decide_eq_false_iff_not]
    intro hmem
    have hword := isWordChar_float hwhole hplaces hexponent false ':' hmem
    cases hword
  have hpoint : ∀ cs : List Char, whole ++ '.' :: (places ++ exponent) ≠ '.' :: cs := by
    obtain ⟨d, ds, rfl⟩ := List.exists_cons_of_ne_nil hdigits.ne_nil
    intro cs heq
    exact ne_of_isDigit (hdigits.isDigit d List.mem_cons_self) rfl (List.cons.inj heq).1
  have hinf : whole ++ '.' :: (places ++ exponent) ≠ ".inf".toList := hpoint _
  have hnan : whole ++ '.' :: (places ++ exponent) ≠ ".nan".toList := hpoint _
  rw [Scalar.unsignedFloat, if_neg hinf, if_neg hnan, hcolon, if_neg Bool.false_ne_true,
    decimal_eq hwhole hplaces hexponent]

theorem Scalar.float_eq (negative : Bool) :
    Scalar.float (String.ofList (signChars negative ++ (whole ++ '.' :: (places ++ exponent)))) =
      .ok (Binary64.ofDecimal negative (Binary64.digitsValue (whole ++ places))
        (e - places.length)) := by
  have hdigits := isDigit_of_isWhole hwhole
  have hword := isWordChar_float hwhole hplaces hexponent negative
  have hvalue := unsignedFloat_eq hwhole hplaces (isExponent_map_lower hexponent)
  have hsign : (signChars negative).map (fun c => Char.ofNat (Text.lowerCodePoint c.toNat)) =
      signChars negative := by
    cases negative <;> rfl
  rw [Scalar.float, String.toList_ofList, dropUnderscores_eq_self hword, Text.lower,
    String.toList_ofList, String.toList_ofList,
    lowerFrom_of_ascii fun c hc =>
      Nat.lt_of_le_of_lt (printable_of_isWordChar (hword c hc)).2 (by decide)]
  rw [List.map_append, List.map_append, List.map_cons, List.map_append, hsign,
    map_lower_of_isDigits hdigits, map_lower_of_isDigits hplaces]
  cases negative with
  | true =>
    rw [signChars, if_pos rfl, List.singleton_append]
    show (Scalar.unsignedFloat (whole ++ '.' :: _)).map Binary64.neg = _
    rw [hvalue]
    exact congrArg Except.ok (neg_ofDecimal false _ _)
  | false =>
    obtain ⟨c, rest, rfl⟩ := List.exists_cons_of_ne_nil hdigits.ne_nil
    have hc := hdigits.isDigit c List.mem_cons_self
    rw [signChars, if_neg Bool.false_ne_true, List.nil_append]
    split
    · next heq => cases heq
    · next heq => exact absurd (List.cons.inj heq).1 (ne_of_isDigit hc rfl)
    · next heq => exact absurd (List.cons.inj heq).1 (ne_of_isDigit hc rfl)
    · exact hvalue

end Float

/-! ## Forms -/

/-- A text without line feeds has the tag of its form. -/
theorem Tag.ofPlain_eq {cs : List Char} (h : '\n' ∉ cs) :
    Tag.ofPlain (String.ofList cs) = Tag.ofForm cs := by
  rw [Tag.ofPlain, String.toList_ofList]
  split
  · next heq => exact absurd (List.mem_reverse.mp (heq ▸ List.mem_cons_self)) h
  · next heq => exact absurd (List.mem_reverse.mp (heq ▸ List.mem_cons_self)) h
  · rfl

/-- What opens with a digit or a minus sign is none of the words that open with neither. -/
theorem Tag.contains_eq_false {words : List String}
    (hwords : (words.all fun w => w.toList.head?.all fun c => !c.isDigit && c != '-') = true)
    {c : Char} {rest : List Char} (hc : c.isDigit = true ∨ c = '-') :
    words.contains (String.ofList (c :: rest)) = false := by
  rw [List.contains_eq_mem, decide_eq_false_iff_not]
  intro hmem
  have hword := List.all_eq_true.mp hwords _ hmem
  rw [String.toList_ofList, List.head?_cons, Option.all_some, Bool.and_eq_true, Bool.not_eq_true',
    bne_iff_ne] at hword
  obtain hdigit | hminus := hc
  · rw [hword.1] at hdigit
    cases hdigit
  · exact hword.2 hminus

theorem Tag.ofForm_number {c : Char} {rest : List Char} (hc : c.isDigit = true ∨ c = '-') :
    Tag.ofForm (c :: rest) =
      if Tag.isFloat (c :: rest) then .float
      else if Tag.isInt (c :: rest) then .int
      else Tag.ofForm (c :: rest) := by
  rw [Tag.ofForm, Tag.contains_eq_false (by decide) hc, Tag.contains_eq_false (by decide) hc,
    if_neg Bool.false_ne_true, if_neg Bool.false_ne_true]
  split_ifs <;> rfl

theorem Tag.dropSign_signChars (negative : Bool) {cs : List Char}
    (h : ∀ c ∈ cs.head?, c.isDigit = true) : Tag.dropSign (signChars negative ++ cs) = cs := by
  cases negative with
  | true => rfl
  | false =>
    rw [signChars, if_neg Bool.false_ne_true, List.nil_append, Tag.dropSign.eq_def]
    split
    · exact absurd (h '+' rfl) (by decide)
    · exact absurd (h '-' rfl) (by decide)
    · rfl

/-- A number opens with a digit or a minus sign. -/
theorem exists_signed_head (negative : Bool) {cs : List Char} (h : IsDigits cs)
    (more : List Char) : ∃ c rest, signChars negative ++ (cs ++ more) = c :: rest ∧
      (c.isDigit = true ∨ c = '-') := by
  cases negative with
  | true => exact ⟨'-', _, rfl, .inr rfl⟩
  | false =>
    obtain ⟨c, rest, rfl⟩ := List.exists_cons_of_ne_nil h.ne_nil
    exact ⟨c, rest ++ more, rfl, .inl (h.isDigit c List.mem_cons_self)⟩

theorem isDigitOrUnderscore_of_isDigit {c : Char} (h : c.isDigit = true) :
    Tag.isDigitOrUnderscore c = true := by
  rw [Tag.isDigitOrUnderscore, h, Bool.true_or]

theorem Tag.isFloat_digits (negative : Bool) {digits : List Char} (h : IsDigits digits) :
    Tag.isFloat (signChars negative ++ digits) = false := by
  have hhead : ∀ c ∈ digits.head?, c.isDigit = true := fun c hc =>
    h.isDigit c (List.mem_of_mem_head? hc)
  have hdecimal : Tag.isDecimal digits = false := by
    have hdrop : digits.dropWhile Tag.isDigitOrUnderscore = [] :=
      List.dropWhile_eq_nil_iff.mpr fun c hc => isDigitOrUnderscore_of_isDigit (h.isDigit c hc)
    rw [Tag.isDecimal, hdrop]
  have hsexagesimal : Tag.isSexagesimalFloat digits = false := by
    have hdrop : digits.dropWhile (· != '.') = [] :=
      List.dropWhile_eq_nil_iff.mpr fun c hc => bne_iff_ne.mpr (ne_of_isDigit (h.isDigit c hc) rfl)
    rw [Tag.isSexagesimalFloat, hdrop]
  obtain ⟨c, rest, hcs, hc⟩ := exists_signed_head negative h []
  rw [List.append_nil] at hcs
  have hpoint : c ≠ '.' := by
    obtain hc | rfl := hc
    · exact ne_of_isDigit hc rfl
    · decide
  obtain ⟨d, ds, hds⟩ := List.exists_cons_of_ne_nil h.ne_nil
  have hd : d.isDigit = true := h.isDigit d (hds ▸ List.mem_cons_self)
  unfold Tag.isFloat
  rw [Tag.dropSign_signChars negative hhead]
  dsimp only
  rw [hdecimal, hsexagesimal, hcs,
    Tag.contains_eq_false (by decide) hc, hds, Tag.contains_eq_false (by decide) (.inl hd)]
  split
  · next heq => exact absurd (List.cons.inj heq).1 hpoint
  · rfl

theorem Tag.splitColons_eq {cs : List Char} (h : ':' ∉ cs) : Tag.splitColons cs = [cs] := by
  induction cs with
  | nil => rfl
  | cons c cs ih =>
    rw [List.mem_cons, not_or] at h
    rw [Tag.splitColons, if_neg (Ne.symm h.1), ih h.2]

theorem Tag.isInt_whole (negative : Bool) {digits : List Char} (h : IsWhole digits) :
    Tag.isInt (signChars negative ++ digits) = true := by
  have hdigits := isDigit_of_isWhole h
  rw [Tag.isInt, Tag.dropSign_signChars negative fun c hc =>
    hdigits.isDigit c (List.mem_of_mem_head? hc)]
  cases h with
  | zero => rfl
  | digits hdigits hhead =>
    have hwhole : Tag.isWhole digits = true := by
      obtain ⟨c, rest, rfl⟩ := List.exists_cons_of_ne_nil hdigits.ne_nil
      rw [Tag.isWhole, Tag.isDigits, hdigits.isDigit c List.mem_cons_self, Bool.true_and,
        Bool.and_eq_true, bne_iff_ne]
      exact ⟨List.all_eq_true.mpr fun d hd =>
        isDigitOrUnderscore_of_isDigit (hdigits.isDigit d (List.mem_cons_of_mem _ hd)), hhead⟩
    rw [Tag.isIntBody.eq_def]
    split
    · rfl
    · exact absurd rfl hhead
    · exact absurd rfl hhead
    · exact absurd rfl hhead
    · rw [Tag.splitColons_eq (notMem_of_isDigits hdigits rfl)]
      exact hwhole

theorem notMem_of_isWordChar {cs : List Char} (h : ∀ c ∈ cs, isWordChar c = true) {d : Char}
    (hd : isWordChar d = false) : d ∉ cs := fun hmem => isWordChar_ne (h d hmem) hd rfl

theorem Tag.ofPlain_int (negative : Bool) {digits : List Char} (h : IsWhole digits) :
    Tag.ofPlain (String.ofList (signChars negative ++ digits)) = .int := by
  have hdigits := isDigit_of_isWhole h
  obtain ⟨c, rest, hcs, hc⟩ := exists_signed_head negative hdigits []
  rw [List.append_nil] at hcs
  have hfloat := Tag.isFloat_digits negative hdigits
  have hint := Tag.isInt_whole negative h
  rw [Tag.ofPlain_eq (notMem_of_isWordChar (isWordChar_int negative hdigits) rfl)]
  rw [hcs] at hfloat hint ⊢
  rw [Tag.ofForm_number hc, hfloat, hint]
  rfl

theorem isDigitOrUnderscore_of_isDigits {ds : List Char} (h : IsDigits ds) :
    ∀ c ∈ ds, Tag.isDigitOrUnderscore c = true := fun c hc =>
  isDigitOrUnderscore_of_isDigit (h.isDigit c hc)

theorem Tag.isExponent_eq_true {exponent : List Char} {e : Int} (h : IsExponent exponent e) :
    Tag.isExponent exponent = true := by
  have hmarks : ∀ mark ∈ ['e', 'E'], (mark == 'e' || mark == 'E') = true := by decide
  have hrun : ∀ {ds : List Char}, IsDigits ds → Tag.isRun Char.isDigit ds = true := by
    intro ds hds
    rw [Tag.isRun, List.isEmpty_eq_false_iff.mpr hds.ne_nil, List.all_eq_true.mpr hds.isDigit]
    rfl
  cases h with
  | none => rfl
  | positive hmark hds =>
    rw [Tag.isExponent, hmarks _ hmark, hrun hds]
    rfl
  | negative hmark hds =>
    rw [Tag.isExponent, hmarks _ hmark, hrun hds]
    rfl

theorem Tag.isDecimal_point {whole places exponent : List Char} {e : Int} (hwhole : IsDigits whole)
    (hplaces : IsDigits places) (hexponent : IsExponent exponent e) :
    Tag.isDecimal (whole ++ '.' :: (places ++ exponent)) = true := by
  have hdrop : (whole ++ '.' :: (places ++ exponent)).dropWhile Tag.isDigitOrUnderscore =
      '.' :: (places ++ exponent) := by
    rw [List.dropWhile_append_of_pos (isDigitOrUnderscore_of_isDigits hwhole)]
    rfl
  have hbehind : (places ++ exponent).dropWhile Tag.isDigitOrUnderscore = exponent := by
    rw [List.dropWhile_append_of_pos (isDigitOrUnderscore_of_isDigits hplaces)]
    cases exponent with
    | nil => rfl
    | cons mark exponent =>
      obtain ⟨hdigit, hmark⟩ := IsExponent.head_ne hexponent mark rfl
      rw [List.dropWhile_cons_of_neg]
      rw [Tag.isDigitOrUnderscore, hdigit, Bool.false_or, beq_iff_eq]
      exact hmark
  have hfirst : (whole ++ '.' :: (places ++ exponent)).head?.any Char.isDigit = true := by
    obtain ⟨d, ds, rfl⟩ := List.exists_cons_of_ne_nil hwhole.ne_nil
    exact hwhole.isDigit d List.mem_cons_self
  rw [Tag.isDecimal, hdrop]
  show (_ && Tag.isExponent ((places ++ exponent).dropWhile Tag.isDigitOrUnderscore)) = true
  rw [hfirst, hbehind, Tag.isExponent_eq_true hexponent]
  rfl

theorem Tag.ofPlain_float (negative : Bool) {whole places exponent : List Char} {e : Int}
    (hwhole : IsWhole whole) (hplaces : IsDigits places) (hexponent : IsExponent exponent e) :
    Tag.ofPlain (String.ofList (signChars negative ++ (whole ++ '.' :: (places ++ exponent)))) =
      .float := by
  have hdigits := isDigit_of_isWhole hwhole
  have hword := isWordChar_float hwhole hplaces hexponent negative
  obtain ⟨c, rest, hcs, hc⟩ := exists_signed_head negative hdigits ('.' :: (places ++ exponent))
  have hhead : ∀ c ∈ (whole ++ '.' :: (places ++ exponent)).head?, c.isDigit = true := by
    obtain ⟨d, ds, rfl⟩ := List.exists_cons_of_ne_nil hdigits.ne_nil
    rintro _ ⟨⟩
    exact hdigits.isDigit d List.mem_cons_self
  have hfloat : Tag.isFloat (signChars negative ++ (whole ++ '.' :: (places ++ exponent))) = true := by
    unfold Tag.isFloat
    rw [Tag.dropSign_signChars negative hhead]
    dsimp only
    rw [Tag.isDecimal_point hdigits hplaces hexponent]
    rfl
  rw [Tag.ofPlain_eq (notMem_of_isWordChar hword rfl)]
  rw [hcs] at hfloat ⊢
  rw [Tag.ofForm_number hc, hfloat]
  rfl

end DocSchema.Yaml
