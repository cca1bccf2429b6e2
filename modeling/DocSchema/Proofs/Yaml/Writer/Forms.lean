import DocSchema.Proofs.Yaml.Timestamps
import DocSchema.Proofs.Yaml.Writer.Plain
import Mathlib.Data.List.Chain

/-!
# Scalars that are known by their form

Numbers, truth values, times and null are written plain: their texts have the right tags by their
form alone, and nothing in them means anything else.

## Main definitions

* `WrittenPlain`: a scalar that is written plain and read back

## Main results

* `writtenPlain_int`, `writtenPlain_date`, `writtenPlain_datetime`
-/

namespace DocSchema.Yaml

open Json.Portable (isDigit_of_isWhole signChars)
open Json.Grammar (IsDigits IsWhole)
open Number (Binary64 digitChars)

-- Decisions about the members of a list go through the list and not through all characters.
attribute [local instance (2000)] List.decidableBAll

/-! ## Plain forms -/

/-- In a form that is plain a word goes on behind every colon. -/
def GoesOn (a b : Char) : Prop := a = ':' → isSpacing b = false

theorem isChain_goesOn {cs : List Char} (h : ∀ c ∈ cs, c ≠ ':') : cs.IsChain GoesOn :=
  List.Pairwise.isChain (List.pairwise_of_forall_mem_list fun a ha _ _ hcolon => absurd hcolon (h a ha))

theorem holdsIndicator_eq_false {cs : List Char} (hmark : '#' ∉ cs) (hchain : cs.IsChain GoesOn)
    (hlast : cs.getLast? ≠ some ':') : holdsIndicator cs = false := by
  induction cs with
  | nil => rfl
  | cons a cs ih =>
    cases cs with
    | nil => rfl
    | cons b rest =>
      have hrest : holdsIndicator (b :: rest) = false := by
        refine ih (fun hmem => hmark (List.mem_cons_of_mem a hmem)) hchain.tail ?_
        rwa [List.getLast?_cons_cons] at hlast
      have hb : (b == '#') = false := beq_eq_false_iff_ne.mpr fun heq => hmark (by simp [heq])
      have hcolon : (b == ':' && wordEndsBefore rest) = false := by
        cases rest with
        | nil =>
          have hne : (b == ':') = false := beq_eq_false_iff_ne.mpr fun heq => hlast (congrArg some heq)
          rw [hne, Bool.false_and]
        | cons c rest =>
          by_cases heq : b = ':'
          · have hnext : isSpacing c = false := (List.isChain_cons_cons.mp hchain.tail).1 heq
            rw [wordEndsBefore, List.head?_cons, endsWord, hnext, Bool.and_false]
          · rw [beq_eq_false_iff_ne.mpr heq, Bool.false_and]
      rw [holdsIndicator, hcolon, hb, hrest]
      rfl

/-- A digit, perhaps behind a hyphen, opens no sign. -/
theorem opensWithIndicator_number {c : Char} {rest : List Char}
    (h : c.isDigit = true ∨ c = '-' ∧ ∃ d more, rest = d :: more ∧ d.isDigit = true) :
    opensWithIndicator (c :: rest) = false := by
  obtain hc | ⟨rfl, d, more, rfl, hd⟩ := h
  · have hsign : "#,[]\x7b\x7d&*!|>'\"%@`".toList.contains c = false := by
      rw [List.contains_eq_mem, decide_eq_false_iff_not]
      intro hmem
      have hall : ∀ s ∈ "#,[]\x7b\x7d&*!|>'\"%@`".toList, s.isDigit = false := by decide
      rw [hall c hmem] at hc
      cases hc
    have hne : ∀ s : Char, s.isDigit = false → (c == s) = false := fun s hs =>
      beq_eq_false_iff_ne.mpr (ne_of_isDigit hc hs)
    have hstarts : ∀ s : Char, s.isDigit = false → ∀ more, (s :: more).isPrefixOf (c :: rest) = false := by
      intro s hs more
      rw [List.isPrefixOf, beq_eq_false_iff_ne.mpr (ne_of_isDigit hc hs).symm, Bool.false_and]
    rw [opensWithIndicator, hsign, hne '?' rfl, hne ':' rfl, hne '-' rfl]
    show (false || (false || false || false) && _ || ['-', '-', '-'].isPrefixOf _ ||
      ['.', '.', '.'].isPrefixOf _) = false
    rw [hstarts '-' rfl, hstarts '.' rfl]
    rfl
  · have hword : wordEndsBefore (d :: more) = false := isSpacing_of_isWordChar (isWordChar_of_isDigit hd)
    have hhyphen : ('-' == d) = false := beq_eq_false_iff_ne.mpr (ne_of_isDigit hd rfl).symm
    rw [opensWithIndicator, hword]
    show (_ || _ && false || ('-' == '-' && ('-' == d && _)) || ('.' == '-' && _)) = false
    rw [hhyphen]
    rfl

/-- A text of digits and signs from a digit on, perhaps behind a hyphen, up to a digit. -/
structure IsNumeric (cs : List Char) : Prop where
  chars : ∀ c ∈ cs, isWordChar c = true ∨ c = ' ' ∨ c = ':'
  head : ∃ c rest, cs = c :: rest ∧
    (c.isDigit = true ∨ c = '-' ∧ ∃ d more, rest = d :: more ∧ d.isDigit = true)
  last : ∀ c ∈ cs.getLast?, c.isDigit = true
  chain : cs.IsChain GoesOn

/-- Nothing in such a text means anything else. -/
theorem IsNumeric.canBePlain {cs : List Char} (h : IsNumeric cs) : canBePlain cs = true := by
  obtain ⟨hchars, ⟨c, rest, rfl, hhead⟩, hlast, hchain⟩ := h
  have hprintable : ∀ d ∈ c :: rest, 32 ≤ d.toNat ∧ d.toNat ≤ 126 := by
    intro d hd
    obtain hword | rfl | rfl := hchars d hd
    · exact printable_of_isWordChar hword
    · decide
    · decide
  have hescape : (c :: rest).any needsEscape = false := by
    rw [List.any_eq_false]
    intro d hd
    rw [needsEscape, decide_eq_true (hprintable d hd).1, decide_eq_true (hprintable d hd).2]
    simp
  have hmulti : isMultiline (c :: rest) = false := by
    rw [isMultiline, List.any_eq_false]
    intro d hd
    rw [isBreak_of_printable (hprintable d hd)]
    exact Bool.false_ne_true
  have houter : hasOuterSpace (c :: rest) = false := by
    have hfirst : c ≠ ' ' := by
      obtain hc | ⟨rfl, -⟩ := hhead
      · exact ne_of_isDigit hc rfl
      · decide
    rw [hasOuterSpace, List.head?_cons, Option.any_some, beq_eq_false_iff_ne.mpr hfirst,
      isBreak_of_printable (hprintable c List.mem_cons_self)]
    cases hend : (c :: rest).getLast? with
    | none => rfl
    | some d =>
      rw [Option.any_some, beq_eq_false_iff_ne.mpr (ne_of_isDigit (hlast d hend) rfl),
        isBreak_of_printable (hprintable d (List.mem_of_getLast? hend))]
      rfl
  have hindicator : holdsIndicator (c :: rest) = false := by
    refine holdsIndicator_eq_false (fun hmem => ?_) hchain fun hcolon => ?_
    · obtain hmark | hmark | hmark := hchars '#' hmem <;> cases hmark
    · cases hlast ':' hcolon
  rw [Yaml.canBePlain, hescape, hmulti, houter, opensWithIndicator_number hhead, hindicator]
  rfl

/-! ## Scalars -/

namespace Writer

variable {w : WrittenScalar} {v : Value}

/-- A scalar is written plain, and its text is read back to the value by its form alone. -/
structure WrittenPlain (w : WrittenScalar) (v : Value) : Prop where
  preferBlock : w.preferBlock = false
  isImplicit : w.isImplicit = true
  canBePlain : canBePlain w.text.toList = true
  isKey : v.isKey = true
  isScalar : (Tag.ofPlain w.text).isScalar = true
  value : Scalar.value (Tag.ofPlain w.text) w.text = .ok v

theorem WrittenPlain.style (h : WrittenPlain w v) (isKey : Bool) : w.style isKey = .plain := by
  rw [WrittenScalar.style, h.preferBlock, h.isImplicit, h.canBePlain]
  rfl

theorem WrittenPlain.writesScalar (h : WrittenPlain w v) (n : Nat) : WritesScalar n w v :=
  writesScalar_plain (h.style false) h.isKey h.isScalar h.value

theorem WrittenPlain.writesKey (h : WrittenPlain w v) (n : Nat) (hsimple : w.isSimpleKey = true) :
    WritesKey n w v :=
  writesKey_plain (h.style true) hsimple h.isKey h.isScalar h.value

theorem writtenPlain_null : WrittenPlain ⟨"null", "null", false⟩ .null :=
  ⟨rfl, by decide, by decide, rfl, by decide, rfl⟩

theorem writtenPlain_bool (b : Bool) :
    WrittenPlain ⟨"bool", if b then "true" else "false", false⟩ (.bool b) := by
  cases b
  · exact ⟨rfl, by decide, by decide, rfl, by decide, rfl⟩
  · exact ⟨rfl, by decide, by decide, rfl, by decide, rfl⟩

/-- A scalar with a tag that its text has by its form. -/
theorem writtenPlain_of_tag {name text : String} {tag : Tag}
    (hname : Tag.ofText (Tag.schemaText ++ name) = tag) (htag : Tag.ofPlain text = tag)
    (hscalar : tag.isScalar = true) (hkey : v.isKey = true) (hplain : canBePlain text.toList = true)
    (hvalue : Scalar.value tag text = .ok v) : WrittenPlain ⟨name, text, false⟩ v where
  preferBlock := rfl
  isImplicit := by
    rw [WrittenScalar.isImplicit, WrittenScalar.fullTag, htag, hname, beq_self_eq_true]
  canBePlain := hplain
  isKey := hkey
  isScalar := htag ▸ hscalar
  value := htag ▸ hvalue

/-! ### Integers -/

theorem toList_toString (n : Int) :
    (toString n).toList = signChars (decide (n < 0)) ++ digitChars n.natAbs := by
  cases n with
  | ofNat m => exact Nat.toList_repr
  | negSucc m =>
    show ("-" ++ Nat.repr (m + 1)).toList = _
    rw [String.toList_append, Nat.toList_repr, decide_eq_true (Int.negSucc_lt_zero m)]
    rfl

theorem isNumeric_signed (negative : Bool) {digits : List Char} (h : IsDigits digits)
    {more : List Char} (hmore : ∀ c ∈ more, isWordChar c = true)
    (hlast : ∀ c ∈ more.getLast?, c.isDigit = true) :
    IsNumeric (signChars negative ++ (digits ++ more)) := by
  have hword : ∀ c ∈ signChars negative ++ (digits ++ more), isWordChar c = true :=
    List.forall_mem_append.mpr ⟨isWordChar_signChars negative, List.forall_mem_append.mpr
      ⟨fun c hc => isWordChar_of_isDigit (h.isDigit c hc), hmore⟩⟩
  obtain ⟨d, ds, rfl⟩ := List.exists_cons_of_ne_nil h.ne_nil
  have hd := h.isDigit d List.mem_cons_self
  refine ⟨fun c hc => .inl (hword c hc), ?_, fun c hc => ?_,
    isChain_goesOn fun c hc => isWordChar_ne (hword c hc) rfl⟩
  · cases negative with
    | true => exact ⟨'-', _, rfl, .inr ⟨rfl, d, _, rfl, hd⟩⟩
    | false => exact ⟨d, _, rfl, .inl hd⟩
  · cases more with
    | nil =>
      rw [List.append_nil, List.getLast?_append_of_ne_nil _ h.ne_nil] at hc
      exact h.isDigit c (List.mem_of_getLast? hc)
    | cons e more =>
      rw [List.getLast?_append_of_ne_nil _ (by simp),
        List.getLast?_append_of_ne_nil _ (List.cons_ne_nil e more)] at hc
      exact hlast c hc

theorem writtenPlain_int {n : Int} (h : (digitChars n.natAbs).length ≤ 4300) :
    WrittenPlain ⟨"int", toString n, false⟩ (.int n) := by
  have hwhole := Json.isWhole_digitChars n.natAbs
  have htext : toString n = String.ofList (signChars (decide (n < 0)) ++ digitChars n.natAbs) := by
    rw [← toList_toString, String.ofList_toList]
  have hvalue : Scalar.value .int (toString n) = .ok (.int n) := by
    rw [Scalar.value, htext, Scalar.int_eq _ hwhole h, Json.digitsValue_digitChars]
    split_ifs with hneg
    · rw [decide_eq_true_eq] at hneg
      rw [Int.ofNat_natAbs_of_nonpos (by omega), Int.neg_neg]
      rfl
    · rw [decide_eq_true_eq] at hneg
      rw [Int.natAbs_of_nonneg (by omega)]
      rfl
  refine writtenPlain_of_tag (by decide) (htext ▸ Tag.ofPlain_int _ hwhole) rfl rfl ?_ hvalue
  have hnumeric := @isNumeric_signed (decide (n < 0)) _ (Json.isDigits_digitChars n.natAbs) [] nofun nofun
  rw [List.append_nil] at hnumeric
  show canBePlain (toString n).toList = true
  rw [toList_toString]
  exact hnumeric.canBePlain

/-! ### Times -/

/-- A number goes on behind a colon. -/
theorem isChain_colon {cs more : List Char} (h : ∀ c ∈ cs, c ≠ ':') (hmore : more.IsChain GoesOn)
    (hhead : ∀ c ∈ more.head?, c.isDigit = true) : (cs ++ ':' :: more).IsChain GoesOn := by
  refine List.isChain_append.mpr ⟨isChain_goesOn h, List.isChain_cons.mpr ⟨fun c hc _ => ?_, hmore⟩,
    fun c hc _ _ hcolon => absurd hcolon (h c (List.mem_of_getLast? hc))⟩
  exact isSpacing_of_isWordChar (isWordChar_of_isDigit (hhead c hc))

theorem ne_colon_padded {width n : Nat} {cs : List Char} (h : IsPadded width n cs) :
    ∀ c ∈ cs, c ≠ ':' := fun c hc => ne_of_isDigit (h.isDigit c hc) rfl

theorem isDigit_head_padded {width n : Nat} {cs more : List Char} (h : IsPadded (width + 1) n cs) :
    ∀ c ∈ (cs ++ more).head?, c.isDigit = true := by
  obtain ⟨d, ds, rfl, hd⟩ := h.exists_cons
  rintro _ ⟨⟩
  exact hd

theorem isDigit_last_padded {width n : Nat} {cs : List Char} (h : IsPadded (width + 1) n cs)
    (before : List Char) : ∀ c ∈ (before ++ cs).getLast?, c.isDigit = true := by
  intro c hc
  obtain ⟨d, ds, rfl, -⟩ := h.exists_cons
  rw [List.getLast?_append_of_ne_nil _ (List.cons_ne_nil d ds)] at hc
  exact h.isDigit c (List.mem_of_getLast? hc)

/-- What starts with a date is plain if it ends with a number. -/
theorem isNumeric_time {d : Date} (hdate : d.fault? = none) {more : List Char}
    (hchars : ∀ c ∈ d.iso.toList ++ more, isTimeChar c = true)
    (hlast : ∀ c ∈ (d.iso.toList ++ more).getLast?, c.isDigit = true)
    (hchain : (d.iso.toList ++ more).IsChain GoesOn) : IsNumeric (d.iso.toList ++ more) where
  chars c hc := by
    have htime := hchars c hc
    simp only [isTimeChar, Bool.or_eq_true, List.contains_eq_mem, decide_eq_true_eq] at htime
    obtain hdigit | hmem := htime
    · exact .inl (isWordChar_of_isDigit hdigit)
    · have hsigns : ∀ s ∈ [' ', '-', ':', '.', '+'], isWordChar s = true ∨ s = ' ' ∨ s = ':' := by
        decide
      exact hsigns c hmem
  head := by
    obtain ⟨ys, ms, ds, hyear, -, -, hiso⟩ := Date.exists_iso hdate
    obtain ⟨c, ys, rfl, hc⟩ := hyear.exists_cons
    rw [hiso]
    exact ⟨c, _, rfl, .inl hc⟩
  last := hlast
  chain := hchain

theorem ne_colon_iso {d : Date} (h : d.fault? = none) : ∀ c ∈ d.iso.toList, c ≠ ':' := by
  obtain ⟨ys, ms, ds, hyear, hmonth, hday, hiso⟩ := Date.exists_iso h
  rw [hiso]
  exact List.forall_mem_append.mpr ⟨ne_colon_padded hyear, List.forall_mem_cons.mpr ⟨by decide,
    List.forall_mem_append.mpr ⟨ne_colon_padded hmonth, List.forall_mem_cons.mpr ⟨by decide,
      ne_colon_padded hday⟩⟩⟩⟩

theorem writtenPlain_date {d : Date} (h : d.fault? = none) :
    WrittenPlain ⟨"timestamp", d.iso, false⟩ (.date d) := by
  refine writtenPlain_of_tag (by decide) (Tag.ofPlain_date h) rfl rfl ?_ ?_
  · have hlast : ∀ c ∈ (d.iso.toList ++ []).getLast?, c.isDigit = true := by
      obtain ⟨ys, ms, ds, -, -, hday, hiso⟩ := Date.exists_iso h
      rw [List.append_nil, hiso, ← List.cons_append, ← List.append_assoc, List.append_cons]
      exact isDigit_last_padded hday _
    have hnumeric := isNumeric_time h (by rw [List.append_nil]; exact isTimeChar_iso h) hlast
      (by rw [List.append_nil]; exact isChain_goesOn (ne_colon_iso h))
    rw [List.append_nil] at hnumeric
    exact hnumeric.canBePlain
  · rw [Scalar.value, Scalar.timestamp_date h]
    rfl

/-- The end of a written time: a fraction and a zone, or what there is of them. -/
theorem isChain_timeEnd {t : DateTime} {ss fs : List Char} (hsecond : IsPadded 2 t.time.second ss)
    (hfraction : IsFractionText t.time.microsecond fs)
    (hoffset : ∀ seconds ∈ t.offset, ProperOffset seconds) :
    (ss ++ fs ++ t.zoneChars).IsChain GoesOn ∧
      ∀ c ∈ (ss ++ fs ++ t.zoneChars).getLast?, c.isDigit = true := by
  have hfs : ∀ c ∈ ss ++ fs, c ≠ ':' := by
    refine List.forall_mem_append.mpr ⟨ne_colon_padded hsecond, ?_⟩
    obtain ⟨-, rfl⟩ | ⟨us, hus, rfl⟩ := hfraction
    · exact nofun
    · exact List.forall_mem_cons.mpr ⟨by decide, ne_colon_padded hus⟩
  cases hsome : t.offset with
  | none =>
    have hnone : t.zoneChars = [] := by
      rw [DateTime.zoneChars, hsome]
      rfl
    rw [hnone, List.append_nil]
    refine ⟨isChain_goesOn hfs, ?_⟩
    obtain ⟨-, rfl⟩ | ⟨us, hus, rfl⟩ := hfraction
    · rw [List.append_nil]
      exact isDigit_last_padded hsecond []
    · rw [List.append_cons]
      exact isDigit_last_padded hus _
  | some seconds =>
    obtain ⟨hs, ms, hhours, hminutes, hiso⟩ := (hoffset seconds hsome).exists_iso
    have hzone : t.zoneChars = (if seconds < 0 then '-' else '+') :: (hs ++ ':' :: ms) := by
      rw [DateTime.zoneChars, hsome, ← hiso]
      rfl
    have hsign : (if seconds < 0 then '-' else '+') ≠ ':' := by
      split_ifs <;> decide
    rw [hzone, List.append_cons, ← List.append_assoc]
    refine ⟨isChain_colon ?_ (isChain_goesOn (ne_colon_padded hminutes)) ?_, ?_⟩
    · exact List.forall_mem_append.mpr ⟨List.forall_mem_append.mpr ⟨hfs,
        List.forall_mem_singleton.mpr hsign⟩, ne_colon_padded hhours⟩
    · have hhead := @isDigit_head_padded _ _ _ [] hminutes
      rwa [List.append_nil] at hhead
    · rw [List.append_cons]
      exact isDigit_last_padded hminutes _

theorem writtenPlain_datetime {t : DateTime} (h : t.Proper) :
    WrittenPlain ⟨"timestamp", t.isoWith " ", false⟩ (.datetime t) := by
  obtain ⟨hdate, htime, hoffset⟩ := h.parts
  obtain ⟨hs, ms, ss, fs, hhour, hminute, hsecond, hfraction, hiso⟩ := htime.exists_iso
  obtain ⟨hend, hendLast⟩ := isChain_timeEnd hsecond hfraction hoffset
  refine writtenPlain_of_tag (by decide) (Tag.ofPlain_datetime h) rfl rfl ?_ ?_
  · have hchars := isTimeChar_isoWith h
    rw [t.toList_isoWith] at hchars ⊢
    have hsplit : ' ' :: (t.time.iso.toList ++ t.zoneChars) =
        (' ' :: hs) ++ ':' :: (ms ++ ':' :: (ss ++ fs ++ t.zoneChars)) := by
      rw [hiso]
      simp only [List.append_assoc, List.cons_append]
    rw [hsplit] at hchars ⊢
    have hfront : ∀ c ∈ t.date.iso.toList ++ ' ' :: hs, c ≠ ':' := List.forall_mem_append.mpr
      ⟨ne_colon_iso hdate, List.forall_mem_cons.mpr ⟨by decide, ne_colon_padded hhour⟩⟩
    have hminutes : (ms ++ ':' :: (ss ++ fs ++ t.zoneChars)).IsChain GoesOn :=
      isChain_colon (ne_colon_padded hminute) hend (by
        rw [List.append_assoc]
        exact isDigit_head_padded hsecond)
    refine (isNumeric_time hdate hchars ?_ ?_).canBePlain
    · have hfrontLast : t.date.iso.toList ++ (' ' :: hs ++ ':' :: (ms ++ ':' :: (ss ++ fs ++ t.zoneChars))) =
          (t.date.iso.toList ++ ' ' :: hs ++ ':' :: (ms ++ [':'])) ++ (ss ++ fs ++ t.zoneChars) := by
        simp only [List.append_assoc, List.cons_append, List.nil_append]
      have hne : ss ++ fs ++ t.zoneChars ≠ [] := by
        obtain ⟨d, ds, rfl, -⟩ := hsecond.exists_cons
        exact List.cons_ne_nil d _
      rw [hfrontLast, List.getLast?_append_of_ne_nil _ hne]
      exact hendLast
    · rw [← List.append_assoc]
      exact isChain_colon hfront hminutes (isDigit_head_padded hminute)
  · rw [Scalar.value, Scalar.timestamp_datetime h]
    rfl

end Writer

end DocSchema.Yaml
