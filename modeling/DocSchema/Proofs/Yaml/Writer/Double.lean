import DocSchema.Proofs.Yaml.QuotedScalars
import DocSchema.Proofs.Yaml.Writer.Blocks
import Mathlib.Algebra.Group.Nat.Defs

/-!
# Writing between double quotes

What is written between double quotes is read back as the text. A character is written as it is or
as an escape, and a long line is cut behind a backslash.

A cut needs care where a space follows it: the indentation of the next line would swallow the
space, so it is written as an escape. The backslash of that escape is written with the cut, and the
space with the characters behind it. That is sound as long as the line is not cut again between
the two. It is not where the indentation leaves some room on the line, and a cut in front of a space
that comes behind an escape is the only one that can be followed by another one there.

## Main definitions

* `spelled`: a character between double quotes
* `Opens`, `Pauses`: what is written so far spells what has been taken so far
* `Page.holdsEscapedSpace`: an escape with a space behind it
* `Page.Writes`: from a place and from a cut on, what is left of a text can be written

## Main results

* `Page.Writes.cons`, `Page.writes_all`: one character, and a whole text
* `Writer.writesScalar_double`, `Writer.writesKey_double`: scalars and keys are read back
-/

namespace DocSchema.Yaml

-- Decisions about the members of a list go through the list and not through all characters.
attribute [local instance (2000)] List.decidableBAll

/-! ## Digits -/

theorem hexValue?_append (ds : List Char) (d : Char) :
    hexValue? (ds ++ [d]) = do return (← hexValue? ds) * 16 + (← Text.hexDigit? d) := by
  rw [hexValue?, List.foldl_append]
  rfl

theorem hexDigit?_upper : ∀ d < 16, Text.hexDigit? (Nat.digitChar d).toUpper = some d := by
  decide

theorem hexValue?_toDigits (n : Nat) :
    hexValue? ((Nat.toDigits 16 n).map Char.toUpper) = some n := by
  induction n using Nat.strongRecOn with
  | ind n ih =>
    by_cases hlt : n < 16
    · rw [Nat.toDigits_of_lt_base hlt, List.map_singleton, ← List.nil_append [_], hexValue?_append,
        hexDigit?_upper n hlt]
      show some (0 * 16 + n) = some n
      rw [Nat.zero_mul, Nat.zero_add]
    · rw [Nat.toDigits_of_base_le (by decide) (by omega), List.map_append, List.map_singleton,
        hexValue?_append, ih (n / 16) (by omega), hexDigit?_upper (n % 16) (by omega)]
      show some (n / 16 * 16 + n % 16) = some n
      rw [Nat.div_add_mod']

theorem hexValue?_replicate (k : Nat) (ds : List Char) :
    hexValue? (List.replicate k '0' ++ ds) = hexValue? ds := by
  induction k with
  | zero => rfl
  | succ k ih =>
    rw [← ih, List.replicate_succ, List.cons_append, hexValue?, List.foldl_cons]
    rfl

/-- The digits of an escape have its width and its value. -/
theorem upperHex_eq {width n : Nat} (hwidth : 0 < width) (h : n < 16 ^ width) :
    (Page.upperHex width n).length = width ∧ hexValue? (Page.upperHex width n) = some n := by
  have hlength := (Nat.length_toDigits_le_iff (by decide) hwidth).mpr h
  rw [Page.upperHex, Text.hexChars]
  rw [List.map_append, List.map_replicate, List.length_append, List.length_replicate,
    List.length_map]
  refine ⟨by omega, ?_⟩
  show hexValue? (List.replicate _ '0' ++ _) = _
  rw [hexValue?_replicate, hexValue?_toDigits]

/-! ## Characters -/

theorem isPiece_hex {letter : Char} {width : Nat} {c : Char} (hwidth : 0 < width)
    (hletter : Assoc.find? letter escapeTable = none) (hescape : escapeWidth? letter = some width)
    (hc : c.toNat < 16 ^ width) : IsPiece ('\\' :: letter :: Page.upperHex width c.toNat) [c] := by
  obtain ⟨hlength, hvalue⟩ := upperHex_eq hwidth hc
  have hpiece := isPiece_code hletter hescape hlength hvalue c.valid
  rwa [Char.ofNat_toNat] at hpiece

theorem toNat_lt (c : Char) : c.toNat < 0x110000 := by
  have hranges : c.toNat < 0xD800 ∨ 0xDFFF < c.toNat ∧ c.toNat < 0x110000 := c.valid
  omega

theorem isPiece_escape_of_char (c : Char) : IsPiece (Page.escape c) [c] := by
  have hletters : ∀ entry ∈ Page.escapeLetters,
      Assoc.find? entry.2 escapeTable = some entry.1 := by decide
  rw [Page.escape]
  split
  · next code letter hfind =>
    have hfound := List.find?_some hfind
    have hcode : code = c.toNat := eq_of_beq hfound
    have hpiece := isPiece_letter (hletters _ (List.mem_of_find?_eq_some hfind))
    rwa [hcode, Char.ofNat_toNat] at hpiece
  · split_ifs with hbyte hunit
    · exact isPiece_hex (by decide) (by decide) rfl (Nat.lt_of_le_of_lt hbyte (by decide))
    · exact isPiece_hex (by decide) (by decide) rfl (Nat.lt_of_le_of_lt hunit (by decide))
    · exact isPiece_hex (by decide) (by decide) rfl (Nat.lt_of_lt_of_le (toNat_lt c) (by decide))

theorem exists_digitChar {n : Nat} {c : Char} (h : c ∈ Nat.toDigits 16 n) :
    ∃ d < 16, c = Nat.digitChar d := by
  induction n using Nat.strongRecOn with
  | ind n ih =>
    by_cases hlt : n < 16
    · rw [Nat.toDigits_of_lt_base hlt, List.mem_singleton] at h
      exact ⟨n, hlt, h⟩
    · rw [Nat.toDigits_of_base_le (by decide) (by omega), List.mem_append, List.mem_singleton] at h
      obtain hmem | hlast := h
      · exact ih (n / 16) (by omega) hmem
      · exact ⟨n % 16, by omega, hlast⟩

theorem printable_upperHex (width n : Nat) :
    ∀ d ∈ Page.upperHex width n, 32 ≤ d.toNat ∧ d.toNat ≤ 126 := by
  have hdigits : ∀ d < 16, 32 ≤ (Nat.digitChar d).toUpper.toNat ∧
      (Nat.digitChar d).toUpper.toNat ≤ 126 := by decide
  intro c hc
  rw [Page.upperHex, Text.hexChars, List.mem_map] at hc
  obtain ⟨digit, hdigit, rfl⟩ := hc
  obtain hzero | hmem := List.mem_append.mp hdigit
  · rw [List.eq_of_mem_replicate hzero]
    decide
  · obtain ⟨d, hd, rfl⟩ := exists_digitChar hmem
    exact hdigits d hd

theorem printable_escape (c : Char) : ∀ d ∈ Page.escape c, 32 ≤ d.toNat ∧ d.toNat ≤ 126 := by
  have hletters : ∀ entry ∈ Page.escapeLetters, 32 ≤ entry.2.toNat ∧ entry.2.toNat ≤ 126 := by decide
  have hhex : ∀ (letter : Char) (width : Nat), 32 ≤ letter.toNat ∧ letter.toNat ≤ 126 →
      ∀ d ∈ '\\' :: letter :: Page.upperHex width c.toNat, 32 ≤ d.toNat ∧ d.toNat ≤ 126 :=
    fun letter width hletter => List.forall_mem_cons.mpr ⟨by decide,
      List.forall_mem_cons.mpr ⟨hletter, printable_upperHex width c.toNat⟩⟩
  rw [Page.escape]
  split
  · next code letter hfind =>
    have hletter := hletters _ (List.mem_of_find?_eq_some hfind)
    exact List.forall_mem_cons.mpr ⟨by decide, List.forall_mem_singleton.mpr hletter⟩
  · split_ifs
    · exact hhex 'x' 2 (by decide)
    · exact hhex 'u' 4 (by decide)
    · exact hhex 'U' 8 (by decide)

/-- What needs no escape is printable and neither a quote nor a backslash. -/
theorem isEscaped_eq_false_iff {c : Char} : Page.isEscaped c = false ↔
    (c ≠ '"' ∧ c ≠ '\\') ∧ 32 ≤ c.toNat ∧ c.toNat ≤ 126 := by
  simp only [Page.isEscaped, Bool.or_eq_false_iff, beq_eq_false_iff_ne, Bool.not_eq_false',
    Bool.and_eq_true, decide_eq_true_eq, ne_eq]

theorem printable_of_not_escaped {c : Char} (h : Page.isEscaped c = false) :
    32 ≤ c.toNat ∧ c.toNat ≤ 126 := (isEscaped_eq_false_iff.mp h).2

theorem isPiece_of_not_escaped {c : Char} (h : Page.isEscaped c = false) (hspace : c ≠ ' ') :
    IsPiece [c] [c] := by
  obtain ⟨⟨hquote, hback⟩, hlow, hhigh⟩ := isEscaped_eq_false_iff.mp h
  refine isPiece_plain ?_ hquote hback
  have htab : c ≠ '\t' := by
    rintro rfl
    exact absurd hlow (by decide)
  rw [isSpacing, isSpaceOrTab, isBreak, beq_eq_false_iff_ne.mpr hspace, beq_eq_false_iff_ne.mpr htab]
  simp only [Bool.false_or, Bool.or_eq_false_iff, beq_eq_false_iff_ne]
  omega

/-! ## What is written so far -/

/-- What is written so far spells what has been taken so far, whatever comes next. -/
structure Opens (out read : List Char) : Prop where
  printable : ∀ c ∈ out, c = '\n' ∨ 32 ≤ c.toNat ∧ c.toNat ≤ 126
  append_spells : ∀ more text, Spells more text → Spells (out ++ more) (read ++ text)

theorem opens_nil : Opens [] [] := ⟨nofun, fun _ _ h => h⟩

theorem Opens.append {out read more text : List Char} (h : Opens out read) (hmore : Opens more text) :
    Opens (out ++ more) (read ++ text) := by
  refine ⟨List.forall_mem_append.mpr ⟨h.printable, hmore.printable⟩, fun cs rs hcs => ?_⟩
  rw [List.append_assoc, List.append_assoc]
  exact h.append_spells _ _ (hmore.append_spells _ _ hcs)

theorem IsPiece.opens {out read : List Char} (h : IsPiece out read)
    (hprintable : ∀ c ∈ out, 32 ≤ c.toNat ∧ c.toNat ≤ 126) : Opens out read :=
  ⟨fun c hc => .inr (hprintable c hc), fun _ _ hmore => .piece h hmore⟩

theorem Opens.spells {out read : List Char} (h : Opens out read) : Spells out read := by
  have hspells := h.append_spells [] [] .nil
  rwa [List.append_nil, List.append_nil] at hspells

/-- A character between double quotes. -/
def spelled (c : Char) : List Char := if Page.isEscaped c then Page.escape c else [c]

theorem isPiece_spelled {c : Char} (hspace : c ≠ ' ') : IsPiece (spelled c) [c] := by
  rw [spelled]
  split_ifs with hescaped
  · exact isPiece_escape_of_char c
  · exact isPiece_of_not_escaped (eq_false_of_ne_true hescaped) hspace

theorem printable_spelled (c : Char) : ∀ d ∈ spelled c, 32 ≤ d.toNat ∧ d.toNat ≤ 126 := by
  rw [spelled]
  split_ifs with hescaped
  · exact printable_escape c
  · rw [Bool.not_eq_true] at hescaped
    exact List.forall_mem_singleton.mpr (printable_of_not_escaped hescaped)

/-- An escape has at most eight digits behind its two signs. -/
theorem length_spelled_le (c : Char) : (spelled c).length ≤ 10 := by
  have hhex : ∀ (letter : Char) (width : Nat), 0 < width → width ≤ 8 → c.toNat < 16 ^ width →
      ('\\' :: letter :: Page.upperHex width c.toNat).length ≤ 10 := by
    intro letter width hwidth hle hlt
    rw [List.length_cons, List.length_cons, (upperHex_eq hwidth hlt).1]
    omega
  rw [spelled]
  split_ifs with hescaped
  · rw [Page.escape]
    split
    · exact Nat.le_add_left 2 8
    · split_ifs with hbyte hunit
      · exact hhex 'x' 2 (by decide) (by decide) (Nat.lt_of_le_of_lt hbyte (by decide))
      · exact hhex 'u' 4 (by decide) (by decide) (Nat.lt_of_le_of_lt hunit (by decide))
      · exact hhex 'U' 8 (by decide) (by decide) (Nat.lt_of_lt_of_le (toNat_lt c) (by decide))
  · exact Nat.le_add_left 1 9

theorem length_flatMap_spelled_le (cs : List Char) :
    (cs.flatMap spelled).length ≤ 10 * cs.length := by
  induction cs with
  | nil => exact Nat.le_refl 0
  | cons c cs ih =>
    have hfirst := length_spelled_le c
    rw [List.flatMap_cons, List.length_append, List.length_cons]
    omega

theorem opens_spelled (c : Char) : Opens (spelled c) [c] := by
  by_cases hspace : c = ' '
  · subst hspace
    exact ⟨fun d hd => .inr (printable_spelled ' ' d hd), fun _ _ hmore => .space hmore⟩
  · exact (isPiece_spelled hspace).opens (printable_spelled c)

/-- What is written so far spells what has been taken so far, if no spacing comes next. -/
structure Pauses (out read : List Char) : Prop where
  printable : ∀ c ∈ out, c = '\n' ∨ 32 ≤ c.toNat ∧ c.toNat ≤ 126
  append_spells : ∀ more text, (∀ ch ∈ more.head?, isSpacing ch = false) → Spells more text →
    Spells (out ++ more) (read ++ text)

theorem Opens.pauses {out read : List Char} (h : Opens out read) : Pauses out read :=
  ⟨h.printable, fun more text _ => h.append_spells more text⟩

/-- A piece goes on behind a pause. -/
theorem Pauses.piece {out read piece text : List Char} (h : Pauses out read)
    (hpiece : IsPiece piece text) (hprintable : ∀ c ∈ piece, 32 ≤ c.toNat ∧ c.toNat ≤ 126) :
    Opens (out ++ piece) (read ++ text) := by
  refine ⟨List.forall_mem_append.mpr ⟨h.printable, fun c hc => .inr (hprintable c hc)⟩,
    fun more rest hmore => ?_⟩
  rw [List.append_assoc, List.append_assoc]
  refine h.append_spells _ _ ?_ (.piece hpiece hmore)
  obtain ⟨ch, cs, rfl, hch⟩ := hpiece.starts
  rintro _ ⟨⟩
  exact hch

/-- A line may be cut at a pause, and the cut is another one. -/
theorem Pauses.cut {out read : List Char} (h : Pauses out read) {n : Nat} (hn : 0 < n) :
    Pauses (out ++ '\\' :: '\n' :: List.replicate n ' ') read := by
  refine ⟨List.forall_mem_append.mpr ⟨h.printable, List.forall_mem_cons.mpr ⟨by decide,
    List.forall_mem_cons.mpr ⟨by decide, fun c hc => ?_⟩⟩⟩, fun more text hhead hmore => ?_⟩
  · rw [List.eq_of_mem_replicate hc]
    decide
  · rw [List.append_assoc]
    exact h.append_spells _ _ (by rintro _ ⟨⟩; decide) (.cut hn hhead hmore)

/-! ## The body -/

namespace Page

variable {p : Page} {indent : Nat} {base out read : List Char} {c : Char}

/-- An escape with a space behind it that is not the end. Far to the right the line is cut between
the two, and once more behind the backslash of the space. -/
def holdsEscapedSpace : List Char → Bool
  | c :: d :: e :: rest => (isEscaped c && d == ' ') || holdsEscapedSpace (d :: e :: rest)
  | _ => false

/-- No line is cut twice while the rest of a text is written. -/
def Calm (indent : Nat) (isFirst : Bool) (cs : List Char) : Prop :=
  indent < width ∨ holdsEscapedSpace (if isFirst then cs.tail else cs) = false

theorem Calm.behind {indent : Nat} {isFirst : Bool} {c : Char} {cs : List Char}
    (h : Calm indent isFirst (c :: cs)) : Calm indent false cs := by
  refine h.imp_right fun hnone => ?_
  cases isFirst with
  | true => exact hnone
  | false =>
    match cs with
    | [] => rfl
    | [_] => rfl
    | d :: e :: rest =>
      simp only [Bool.false_eq_true, if_false, holdsEscapedSpace, Bool.or_eq_false_iff] at hnone
      exact hnone.2

/-- A space behind an escape is near enough if something follows. -/
theorem Calm.lt_width {indent : Nat} {c : Char} {rest : List Char} (h : Calm indent false (c :: ' ' :: rest))
    (hescaped : isEscaped c = true) (hne : rest ≠ []) : indent < width := by
  refine h.resolve_right fun hnone => ?_
  obtain ⟨e, more, rfl⟩ := List.exists_cons_of_ne_nil hne
  simp only [Bool.false_eq_true, if_false, holdsEscapedSpace, hescaped, beq_self_eq_true,
    Bool.and_true, Bool.true_or] at hnone
  cases hnone

/-- A line has been cut in front of a character. The backslash in front of a space has been
written. -/
structure Cut (base : List Char) (c : Char) (read : List Char) (p : Page) : Prop where
  atIndent : p.atIndent = false
  written : ∃ out, p.chars = base ++ out ∧ Opens (out ++ spelled c) (read ++ [c]) ∧
    (c ≠ ' ' → Pauses out read)

/-- What is written of a text without a cut. -/
theorem chars_doubleBody_key (indent : Nat) (isFirst : Bool) (waiting cs : List Char) (p : Page) :
    (doubleBody indent false isFirst waiting cs p).chars =
      p.chars ++ waiting.reverse ++ cs.flatMap spelled := by
  induction cs generalizing isFirst waiting p with
  | nil => rw [doubleBody, chars_write, List.flatMap_nil, List.append_nil]
  | cons c rest ih =>
    rw [List.flatMap_cons, spelled, doubleBody]
    cases hescaped : isEscaped c with
    | true =>
      simp only [if_pos, Bool.and_false, Bool.false_and, if_neg Bool.false_ne_true, ih, chars_write,
        List.reverse_nil, List.append_nil, List.append_assoc]
    | false =>
      simp only [if_neg Bool.false_ne_true, Bool.and_false, Bool.false_and, ih, List.reverse_cons,
        List.append_assoc]

/-- The page on which a line is cut in front of a character. -/
def cut (indent : Nat) (c : Char) (p : Page) : Page :=
  let p := ((p.write ['\\']).indentTo indent).inText
  if c == ' ' then p.write ['\\'] else p

/-- A line is cut where that is a pause. -/
theorem cut_of_pauses (hindent : 0 < indent) (hp : p.atIndent = false) (hchars : p.chars = base ++ out)
    (hpauses : Pauses out read) :
    Cut base c read (p.cut indent c) ∧ (p.cut indent c).column ≤ indent + 1 := by
  obtain ⟨hstarts, hline⟩ := startsLine_indentTo (p := p.write ['\\']) (d := indent) (.inl hp)
  have hcut := hpauses.cut hindent
  rw [chars_write, hchars, List.append_assoc, List.append_assoc, List.singleton_append] at hline
  rw [Page.cut]
  by_cases hspace : c = ' '
  · subst hspace
    have hescape := hcut.piece (@isPiece_letter ' ' 32 (by decide)) (by decide)
    rw [beq_self_eq_true, if_pos rfl]
    refine ⟨⟨rfl, out ++ '\\' :: '\n' :: List.replicate indent ' ' ++ ['\\'], ?_, ?_,
      fun hne => absurd rfl hne⟩, ?_⟩
    · rw [chars_write, chars_inText, hline, List.append_assoc]
    · have hblank : spelled ' ' = [' '] := rfl
      rwa [hblank, List.append_assoc]
    · rw [column_write, column_inText, hstarts.column]
      exact Nat.le_refl _
  · rw [beq_eq_false_iff_ne.mpr hspace, if_neg Bool.false_ne_true]
    refine ⟨⟨rfl, _, ?_, hcut.piece (isPiece_spelled hspace) (printable_spelled c), fun _ => hcut⟩, ?_⟩
    · rw [chars_inText, hline]
    · rw [column_inText, hstarts.column]
      exact Nat.le_succ indent

/-- Behind an escape a line may be cut. -/
theorem doubleBody_escaped (hescaped : isEscaped c = true) (isFirst : Bool) (waiting : List Char)
    (d : Char) (rest : List Char) (p : Page) :
    doubleBody indent true isFirst waiting (c :: d :: rest) p =
      let p := (p.write waiting.reverse).write (escape c)
      if !isFirst && decide (width < p.column - 1) then
        doubleBody indent true false [] (d :: rest) ((p.write []).cut indent d)
      else doubleBody indent true false [] (d :: rest) p := by
  rw [doubleBody]
  simp only [hescaped, if_true, Bool.or_true, Bool.and_true, List.isEmpty_cons, Bool.not_false,
    List.head?_cons, List.reverse_nil]
  rfl

/-- In front of a space, or of a character in front of which nothing waits, a line may be cut. -/
theorem doubleBody_plain (hplain : isEscaped c = false) (isFirst : Bool) (waiting rest : List Char)
    (p : Page) :
    doubleBody indent true isFirst waiting (c :: rest) p =
      if !isFirst && !rest.isEmpty && (c == ' ' || waiting.isEmpty) &&
          decide (width < p.column + waiting.length) then
        doubleBody indent true false [c] rest ((p.write waiting.reverse).cut indent c)
      else doubleBody indent true false (c :: waiting) rest p := by
  rw [doubleBody]
  simp only [hplain, if_false, Bool.and_true, Bool.false_eq_true]
  rfl

/-- What is left of a text is written, and then all that is written spells what has been taken and
what was left. -/
def Finishes (indent : Nat) (base : List Char) (isFirst : Bool) (waiting cs read : List Char)
    (p : Page) : Prop :=
  ∃ all, (doubleBody indent true isFirst waiting cs p).chars = base ++ all ∧ Opens all (read ++ cs)

/-- What is left of a text can be written from any place on, and from a cut in front of it on. Behind
a cut in front of a space the line is not cut again, if there is something left behind the space. -/
structure Writes (indent : Nat) (base cs : List Char) : Prop where
  go : ∀ (isFirst : Bool) (waiting read out : List Char) (p : Page), Calm indent isFirst cs →
    p.atIndent = false → p.chars = base ++ out → Opens (out ++ waiting.reverse) read →
      Finishes indent base isFirst waiting cs read p
  goCut : ∀ (c : Char) (rest read : List Char) (p : Page), cs = c :: rest → Calm indent false cs →
    (c = ' ' → rest ≠ [] → p.column ≤ width) → Cut base c read p →
      Finishes indent base false [] cs read p

/-- A step takes one character of what is left. -/
theorem Finishes.step {isFirst : Bool} {waiting more rest : List Char} {q : Page}
    (h : Finishes indent base false more rest (read ++ [c]) q)
    (hstep : doubleBody indent true isFirst waiting (c :: rest) p =
      doubleBody indent true false more rest q) :
    Finishes indent base isFirst waiting (c :: rest) read p := by
  obtain ⟨all, hall, hopens⟩ := h
  rw [← List.append_cons] at hopens
  exact ⟨all, hstep ▸ hall, hopens⟩

theorem writes_nil (indent : Nat) (base : List Char) : Writes indent base [] := by
  refine ⟨fun isFirst waiting read out p _ _ hchars hopens => ⟨out ++ waiting.reverse, ?_, ?_⟩, nofun⟩
  · rw [doubleBody, chars_write, hchars, List.append_assoc]
  · rwa [List.append_nil]

/-- Behind an escape the line may be cut, and what comes next then starts on a new line. -/
theorem Writes.escaped {rest waiting : List Char} (h : Writes indent base rest) (hindent : 0 < indent)
    {isFirst : Bool} (hcalm : Calm indent isFirst (c :: rest)) (hescaped : isEscaped c = true)
    (hp : p.atIndent = false) (hchars : p.chars = base ++ out)
    (hopens : Opens (out ++ waiting.reverse ++ escape c) (read ++ [c])) :
    Finishes indent base isFirst waiting (c :: rest) read p := by
  have hwritten : ((p.write waiting.reverse).write (escape c)).chars =
      base ++ (out ++ waiting.reverse ++ escape c) := by
    rw [chars_write, chars_write, hchars]
    simp only [List.append_assoc]
  have hgo : Finishes indent base false [] rest (read ++ [c])
      ((p.write waiting.reverse).write (escape c)) :=
    h.go false [] _ _ _ hcalm.behind hp hwritten (by rwa [List.reverse_nil, List.append_nil])
  cases rest with
  | nil =>
    refine hgo.step ?_
    conv_lhs => rw [doubleBody]
    simp only [hescaped, if_true, List.isEmpty_nil, Bool.not_true, Bool.and_false, Bool.false_and,
      Bool.false_eq_true, if_false]
  | cons d rest =>
    by_cases hlong : !isFirst && decide (width < ((p.write waiting.reverse).write (escape c)).column - 1)
    · obtain ⟨hcut, hcolumn⟩ := cut_of_pauses (c := d) hindent
        (p := ((p.write waiting.reverse).write (escape c)).write []) hp
        (by rw [chars_write, List.append_nil, hwritten]) hopens.pauses
      refine (h.goCut d rest (read ++ [c]) _ rfl hcalm.behind ?_ hcut).step
        ((doubleBody_escaped hescaped isFirst waiting d rest p).trans (if_pos hlong))
      rintro rfl hne
      rw [Bool.and_eq_true, Bool.not_eq_true'] at hlong
      obtain ⟨rfl, -⟩ := hlong
      have hwidth := hcalm.lt_width hescaped hne
      omega
    · exact hgo.step ((doubleBody_escaped hescaped isFirst waiting d rest p).trans (if_neg hlong))

/-- The line is cut in front of a character that stands for itself. -/
theorem Writes.plainCut {rest waiting : List Char} (h : Writes indent base rest) (hindent : 0 < indent)
    (hcalm : Calm indent false rest) (hplain : isEscaped c = false) (hp : p.atIndent = false)
    (hchars : p.chars = base ++ out) (hpauses : Pauses (out ++ waiting.reverse) read) :
    Finishes indent base false [c] rest (read ++ [c]) ((p.write waiting.reverse).cut indent c) := by
  have hwritten : (p.write waiting.reverse).chars = base ++ (out ++ waiting.reverse) := by
    rw [chars_write, hchars, List.append_assoc]
  obtain ⟨⟨hindent, line, hline, hopens, -⟩, -⟩ := cut_of_pauses (c := c) hindent
    (p := p.write waiting.reverse) hp hwritten hpauses
  rw [spelled, hplain, if_neg Bool.false_ne_true] at hopens
  exact h.go false [c] _ line _ hcalm hindent hline hopens

theorem Writes.cons {rest : List Char} (h : Writes indent base rest) (hindent : 0 < indent) (c : Char) :
    Writes indent base (c :: rest) := by
  refine ⟨fun isFirst waiting read out p hcalm hp hchars hopens => ?_, ?_⟩
  · have hnext := hopens.append (opens_spelled c)
    cases hescaped : isEscaped c with
    | true =>
      rw [spelled, hescaped, if_pos rfl] at hnext
      exact h.escaped hindent hcalm hescaped hp hchars hnext
    | false =>
      rw [spelled, hescaped, if_neg Bool.false_ne_true, List.append_assoc, ← List.reverse_cons] at hnext
      have hstep := @doubleBody_plain indent c hescaped isFirst waiting rest p
      split_ifs at hstep with hlong
      · exact (h.plainCut hindent hcalm.behind hescaped hp hchars hopens.pauses).step hstep
      · exact (h.go false (c :: waiting) _ out p hcalm.behind hp hchars hnext).step hstep
  · rintro _ _ read p ⟨⟩ hcalm hshort ⟨hp, out, hchars, hopens, hpauses⟩
    cases hescaped : isEscaped c with
    | true =>
      rw [spelled, hescaped, if_pos rfl] at hopens
      refine h.escaped hindent hcalm hescaped hp hchars ?_
      rwa [List.reverse_nil, List.append_nil]
    | false =>
      rw [spelled, hescaped, if_neg Bool.false_ne_true] at hopens
      have hstep := @doubleBody_plain indent c hescaped false [] rest p
      split_ifs at hstep with hlong
      · -- only what is no space is cut off again
        simp only [Bool.and_eq_true, Bool.not_eq_true', decide_eq_true_eq, List.length_nil,
          List.isEmpty_eq_false_iff] at hlong
        have hspace : c ≠ ' ' := fun hspace => by
          have hnear := hshort hspace hlong.1.1.2
          omega
        refine (h.plainCut hindent hcalm.behind hescaped hp hchars ?_).step hstep
        rw [List.reverse_nil, List.append_nil]
        exact hpauses hspace
      · exact (h.go false [c] _ out p hcalm.behind hp hchars hopens).step hstep

/-- What is written of a text spells it. -/
theorem writes_all (hindent : 0 < indent) (base cs : List Char) : Writes indent base cs := by
  induction cs with
  | nil => exact writes_nil indent base
  | cons c rest ih => exact ih.cons hindent c

end Page

/-! ## Scalars -/

namespace Writer

variable {w : WrittenScalar}

/-- A text needs no tag in front of its quotes. -/
theorem scalar_double {isKey : Bool} (h : w.style isKey = .double) (htext : w.isText = true)
    (indent : Nat) (p : Page) :
    p.scalar indent isKey w = p.double indent (!isKey) w.text.toList := by
  have htag : w.writesTag .double = false := by
    rw [WrittenScalar.writesTag, htext]
    rfl
  rw [Page.scalar, h, htag]
  rfl

theorem chars_double {indent : Nat} {split : Bool} {cs out : List Char} {p : Page}
    (h : (Page.doubleBody indent split true [] cs (p.sign ['"'] true false false)).chars =
      (p.sign ['"'] true false false).chars ++ out) :
    (p.double indent split cs).chars =
      p.chars ++ ((if p.afterSpace then [] else [' ']) ++ '"' :: (out ++ ['"'])) := by
  rw [Page.double, Page.chars_sign, Bool.not_false, Bool.or_true, if_pos rfl, h, Page.chars_sign,
    Bool.not_true, Bool.or_false]
  cases p.afterSpace <;> simp

theorem writesScalar_double {n : Nat} (hcalm : Page.Calm (n + 2) true w.text.toList)
    (h : w.style false = .double) (htext : w.isText = true) : WritesScalar n w (.text w.text) := by
  intro p hp
  have hwrites := Page.writes_all (Nat.succ_pos (n + 1)) (p.sign ['"'] true false false).chars
    w.text.toList
  obtain ⟨out, hout, hopens⟩ := hwrites.go true [] [] [] (p.sign ['"'] true false false) hcalm
    (Bool.and_false _) (List.append_nil _).symm opens_nil
  have hchars := chars_double hout
  rw [hp] at hchars
  have hreads := hopens.spells.readsQuoted
  rw [List.nil_append, String.ofList_toList] at hreads
  have hpermitted : ∀ c ∈ '"' :: (out ++ ['"']), isPermitted c = true := by
    refine List.forall_mem_cons.mpr ⟨rfl, List.forall_mem_append.mpr ⟨fun c hc => ?_, by decide⟩⟩
    obtain rfl | hrange := hopens.printable c hc
    · rfl
    · exact isPermitted_of_printable hrange
  refine ⟨_, .inl ⟨?_, ?_⟩, hreads.readsScalar hpermitted n⟩
  · rw [scalar_double h htext]
    exact Bool.and_false _
  · rw [scalar_double h htext]
    exact hchars

theorem opens_flatMap_spelled (cs : List Char) : Opens (cs.flatMap spelled) cs := by
  induction cs with
  | nil => exact opens_nil
  | cons c cs ih => exact (opens_spelled c).append ih

/-- A key between double quotes stays on its line. -/
theorem chars_scalar_key {n : Nat} (h : w.style true = .double) (htext : w.isText = true) {p : Page}
    (hp : p.afterSpace = true) : (p.scalar (n + 2) true w).chars =
      p.chars ++ '"' :: (w.text.toList.flatMap spelled ++ ['"']) := by
  have hout := Page.chars_doubleBody_key (n + 2) true [] w.text.toList (p.sign ['"'] true false false)
  rw [List.reverse_nil, List.append_nil] at hout
  have hchars := chars_double hout
  rw [hp] at hchars
  rw [scalar_double h htext]
  exact hchars

theorem readsQuoted_key (s : String) :
    ReadsQuoted true ('"' :: (s.toList.flatMap spelled ++ ['"'])) s ∧
      ∀ c ∈ '"' :: (s.toList.flatMap spelled ++ ['"']), 32 ≤ c.toNat ∧ c.toNat ≤ 126 := by
  have hreads := (opens_flatMap_spelled s.toList).spells.readsQuoted
  rw [String.ofList_toList] at hreads
  refine ⟨hreads, List.forall_mem_cons.mpr ⟨by decide, List.forall_mem_append.mpr ⟨?_, by decide⟩⟩⟩
  exact List.forall_mem_flatMap.mpr fun c _ => printable_spelled c

/-- Such a key has to be short with its escapes. -/
theorem writesKey_double {n : Nat} (h : w.style true = .double) (htext : w.isText = true)
    (hshort : (w.text.toList.flatMap spelled).length ≤ 1022) : WritesKey n w (.text w.text) := by
  intro p hp
  obtain ⟨hreads, hline⟩ := readsQuoted_key w.text
  refine ⟨_, chars_scalar_key h htext hp, hreads.readsKey hline ?_⟩
  rw [List.length_cons, List.length_append, List.length_singleton]
  omega

end Writer

end DocSchema.Yaml
