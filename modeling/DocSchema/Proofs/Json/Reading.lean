import DocSchema.Proofs.Json.Portable

/-!
# Reading portable JSON

The decoder takes a value of portable JSON off the front of a text, whatever follows it that does
not go on with a number. The induction goes over the derivation of the text; the fuel is twice the
number of characters that are still to be taken off.

## Main results

* `Portable.IsElement.read?_eq`: portable JSON stands for the value that is read
-/

namespace DocSchema.Json

-- Decisions about the members of a list go through the list and not through all characters.
attribute [local instance (2000)] List.decidableBAll

namespace Portable

open Grammar (IsDigits IsSpace IsWhole)
open Number (Binary64)

/-! ## White space -/

theorem skipSpace_space {space : List Char} (h : IsSpace space) (cs : List Char) :
    skipSpace (space ++ cs) = skipSpace cs := by
  induction space with
  | nil => rfl
  | cons c space ih =>
    have hc := h c List.mem_cons_self
    simp only [List.mem_cons, List.not_mem_nil, or_false] at hc
    have hspace : c = ' ' ∨ c = '\n' ∨ c = '\r' ∨ c = '\t' := by tauto
    rw [List.cons_append, skipSpace, if_pos hspace]
    exact ih fun d hd => h d (List.mem_cons_of_mem _ hd)

/-! ## Strings -/

theorem codeUnit?_append {a b c d : Char} {code : Nat}
    (h : codeUnit? [a, b, c, d] = some (code, [])) (rest : List Char) :
    codeUnit? (a :: b :: c :: d :: rest) = some (code, rest) := by
  obtain ⟨w, x, y, z, ha, hb, hc, hd, rfl⟩ := exists_digits_of_codeUnit? h
  simp only [codeUnit?, ha, hb, hc, hd]
  rfl

theorem unitChar?_of_isValidChar {code : Nat} (h : code.isValidChar) (rest : List Char) :
    unitChar? code rest = some (Char.ofNat code, rest) := by
  have hranges : code < 0xD800 ∨ 0xDFFF < code ∧ code < 0x110000 := h
  rw [unitChar?.eq_def, if_neg (by omega), if_neg (by omega)]

theorem stringBody?_character {part : List Char} {c : Char} (h : IsCharacter part c) (fuel : Nat)
    (read rest : List Char) :
    stringBody? (fuel + 1) read (part ++ rest) = stringBody? fuel (c :: read) rest := by
  cases h with
  | plain hcontrol hquote hback _ _ =>
    rw [List.singleton_append, stringBody?, if_neg hquote, if_neg hback, if_neg (by omega)]
  | @short letter code hescape =>
    have hread : escape? (letter :: rest) = some (Char.ofNat code, rest) := by
      simp only [shortEscapes, List.mem_cons, Prod.mk.injEq, List.not_mem_nil, or_false] at hescape
      rcases hescape with h | h | h | h | h | h | h | h <;> (obtain ⟨rfl, rfl⟩ := h; rfl)
    simp only [List.cons_append, List.nil_append, stringBody?, hread]
    rfl
  | unit hcode hvalid =>
    simp only [List.cons_append, List.nil_append, stringBody?, escape?, codeUnit?_append hcode,
      Option.bind_eq_bind, Option.bind_some, unitChar?_of_isValidChar hvalid]
    rfl

theorem stringBody?_body {cs read : List Char} (h : IsBody cs read) {fuel : Nat}
    (hfuel : cs.length < fuel) (before rest : List Char) :
    stringBody? fuel before (cs ++ '"' :: rest) = some (before.reverse ++ read, rest) := by
  induction h generalizing fuel before with
  | nil =>
    obtain ⟨fuel, rfl⟩ := Nat.exists_eq_add_of_lt hfuel
    rw [List.nil_append, List.append_nil, stringBody?]
    rfl
  | @cons part cs read c hpart _ ih =>
    have hone : 1 ≤ part.length := by cases hpart <;> exact Nat.le_add_left 1 _
    rw [List.length_append] at hfuel
    obtain ⟨fuel, rfl⟩ := Nat.exists_eq_add_of_le' (by omega : 1 ≤ fuel)
    rw [List.append_assoc, stringBody?_character hpart, ih (by omega), List.reverse_cons,
      List.append_assoc]
    rfl

theorem string?_body {cs read : List Char} (h : IsBody cs read) (rest : List Char) :
    string? (cs ++ '"' :: rest) = some (String.ofList read, rest) := by
  have hfuel : cs.length < (cs ++ '"' :: rest).length + 1 := by
    rw [List.length_append]
    omega
  rw [string?, stringBody?_body h hfuel]
  rfl

/-! ## Numbers -/

theorem isDigit_of_isWhole {cs : List Char} (h : IsWhole cs) : IsDigits cs := by
  cases h with
  | zero => exact ⟨by decide, by decide⟩
  | digits h _ => exact h

theorem isWhole_accepted {cs : List Char} (h : IsWhole cs) :
    (cs.isEmpty || (cs.head? == some '0' && cs.length != 1)) = false := by
  cases h with
  | zero => rfl
  | digits hdigits hhead =>
    have hne : cs.isEmpty = false := List.isEmpty_eq_false_iff.mpr hdigits.ne_nil
    rw [hne, beq_eq_false_iff_ne.mpr hhead]
    rfl

/-- Digits are a run that ends where no digit follows. -/
theorem takeWhile_isDigit {cs rest : List Char} (h : IsDigits cs)
    (hrest : ∀ c ∈ rest.head?, c.isDigit = false) :
    (cs ++ rest).takeWhile Char.isDigit = cs ∧ (cs ++ rest).dropWhile Char.isDigit = rest := by
  rw [List.takeWhile_append_of_pos h.isDigit, List.dropWhile_append_of_pos h.isDigit]
  cases rest with
  | nil => simp
  | cons c rest => simp [hrest c rfl]

theorem ne_minus_of_isDigits {cs rest : List Char} (h : IsDigits cs) (ds : List Char) :
    cs ++ rest ≠ '-' :: ds := by
  obtain ⟨c, cs, rfl⟩ := List.exists_cons_of_ne_nil h.ne_nil
  intro heq
  have hdigit := h.isDigit c List.mem_cons_self
  rw [(List.cons.inj heq).1] at hdigit
  cases hdigit

theorem number?_int (negative : Bool) {digits rest : List Char} (h : IsWhole digits)
    (hrest : EndsNumber rest) :
    number? (signChars negative ++ (digits ++ rest)) =
      some (.int (if negative then -(Binary64.digitsValue digits : Int)
        else Binary64.digitsValue digits), rest) := by
  have hdigits := isDigit_of_isWhole h
  obtain ⟨htake, hdrop⟩ := takeWhile_isDigit hdigits fun c hc => (hrest c hc).1
  have haccepted := isWhole_accepted h
  cases negative with
  | true =>
    rw [signChars, if_pos rfl, List.singleton_append, number?]
    simp only [htake, hdrop, haccepted]
    cases rest with
    | nil => rfl
    | cons c rest =>
      obtain ⟨-, hpoint, he, hE⟩ := hrest c rfl
      simp [hpoint, he, hE]
  | false =>
    rw [signChars, if_neg Bool.false_ne_true, List.nil_append, number?.eq_def]
    split
    rename_i hsign
    split at hsign
    · exact absurd ‹_› (ne_minus_of_isDigits hdigits _)
    · cases hsign
      simp only [htake, hdrop, haccepted]
      cases rest with
      | nil => rfl
      | cons c rest =>
        obtain ⟨-, hpoint, he, hE⟩ := hrest c rfl
        simp [hpoint, he, hE]

/-- Neither a fraction nor an exponent goes on behind an exponent. -/
theorem exponent?_eq {cs rest : List Char} {e : Int} (h : IsExponent cs e)
    (hrest : EndsNumber rest) :
    ∃ found : Option Int, exponent? (cs ++ rest) = some (found, rest) ∧ found.getD 0 = e := by
  cases h with
  | none =>
    refine ⟨none, ?_, rfl⟩
    cases rest with
    | nil => rfl
    | cons c rest =>
      obtain ⟨-, -, he, hE⟩ := hrest c rfl
      rw [List.nil_append, exponent?, if_neg (by tauto)]
  | @positive mark cs hmark hdigits =>
    obtain ⟨htake, hdrop⟩ := takeWhile_isDigit hdigits fun c hc => (hrest c hc).1
    have hmark : mark = 'e' ∨ mark = 'E' := by simpa using hmark
    have hne : cs.isEmpty = false := List.isEmpty_eq_false_iff.mpr hdigits.ne_nil
    refine ⟨some (Binary64.digitsValue cs), ?_, rfl⟩
    simp only [List.cons_append, exponent?, if_pos hmark, Binary64.takeSign, htake, hdrop, hne]
    rfl
  | @negative mark cs hmark hdigits =>
    obtain ⟨htake, hdrop⟩ := takeWhile_isDigit hdigits fun c hc => (hrest c hc).1
    have hmark : mark = 'e' ∨ mark = 'E' := by simpa using hmark
    have hne : cs.isEmpty = false := List.isEmpty_eq_false_iff.mpr hdigits.ne_nil
    refine ⟨some (-(Binary64.digitsValue cs : Int)), ?_, rfl⟩
    simp only [List.cons_append, exponent?, if_pos hmark, Binary64.takeSign, htake, hdrop, hne]
    rfl

theorem IsExponent.head_isDigit {cs rest : List Char} {e : Int} (h : IsExponent cs e)
    (hrest : EndsNumber rest) : ∀ c ∈ (cs ++ rest).head?, c.isDigit = false := by
  have hmark : ∀ mark ∈ ['e', 'E'], mark.isDigit = false := by decide
  cases h with
  | none => exact fun c hc => (hrest c hc).1
  | positive h _ =>
    rintro _ ⟨⟩
    exact hmark _ h
  | negative h _ =>
    rintro _ ⟨⟩
    exact hmark _ h

theorem number?_float (negative : Bool) {whole places exponent rest : List Char} {e : Int}
    (hwhole : IsWhole whole) (hplaces : IsDigits places) (hexponent : IsExponent exponent e)
    (hrest : EndsNumber rest) :
    number? (signChars negative ++ (whole ++ '.' :: (places ++ (exponent ++ rest)))) =
      some (.float (Binary64.ofDecimal negative (Binary64.digitsValue (whole ++ places))
        (e - places.length)), rest) := by
  have hdigits := isDigit_of_isWhole hwhole
  obtain ⟨htake, hdrop⟩ := @takeWhile_isDigit _ ('.' :: (places ++ (exponent ++ rest)))
    hdigits (by rintro _ ⟨⟩; rfl)
  have haccepted := isWhole_accepted hwhole
  have hfraction : fraction? ('.' :: (places ++ (exponent ++ rest))) =
      some (places, exponent ++ rest) := by
    obtain ⟨htake, hdrop⟩ := takeWhile_isDigit hplaces (hexponent.head_isDigit hrest)
    have hne : places.isEmpty = false := List.isEmpty_eq_false_iff.mpr hplaces.ne_nil
    simp only [fraction?, htake, hdrop, hne]
    rfl
  obtain ⟨found, hfound, rfl⟩ := exponent?_eq hexponent hrest
  have hpoint : ('.' != '.' && '.' != 'e' && '.' != 'E') = false := rfl
  cases negative with
  | true =>
    rw [signChars, if_pos rfl, List.singleton_append, number?]
    simp only [htake, hdrop, haccepted, hpoint, hfraction, hfound, Option.bind_eq_bind,
      Option.bind_some]
    rfl
  | false =>
    rw [signChars, if_neg Bool.false_ne_true, List.nil_append, number?.eq_def]
    split
    rename_i hsign
    split at hsign
    · exact absurd ‹_› (ne_minus_of_isDigits hdigits _)
    · cases hsign
      simp only [htake, hdrop, haccepted, hpoint, hfraction, hfound, Option.bind_eq_bind,
        Option.bind_some]
      rfl

theorem IsNumber.number?_eq {cs : List Char} {j : Json} (h : IsNumber cs j) {rest : List Char}
    (hrest : EndsNumber rest) : number? (cs ++ rest) = some (j, rest) := by
  cases h with
  | int negative hwhole _ =>
    rw [List.append_assoc]
    exact number?_int negative hwhole hrest
  | float negative hwhole hplaces hexponent =>
    simp only [List.append_assoc, List.cons_append]
    exact number?_float negative hwhole hplaces hexponent hrest

/-! ## Values -/

theorem IsNumber.exists_head {cs : List Char} {j : Json} (h : IsNumber cs j) :
    ∃ c rest, cs = c :: rest ∧
      c ∉ [' ', '\n', '\r', '\t', ']', '\x7d', '"', '[', '\x7b', 't', 'f', 'n'] := by
  have hminus : '-' ∉ [' ', '\n', '\r', '\t', ']', '\x7d', '"', '[', '\x7b', 't', 'f', 'n'] := by
    decide
  have hdigit : ∀ c : Char, c.isDigit = true →
      c ∉ [' ', '\n', '\r', '\t', ']', '\x7d', '"', '[', '\x7b', 't', 'f', 'n'] := by
    intro c hc hmem
    have hnone : [' ', '\n', '\r', '\t', ']', '\x7d', '"', '[', '\x7b', 't', 'f', 'n'].any
        Char.isDigit = false := by decide
    exact List.any_eq_false.mp hnone c hmem hc
  have hsigned : ∀ (negative : Bool) (whole more : List Char), IsWhole whole →
      ∃ c rest, signChars negative ++ (whole ++ more) = c :: rest ∧
        c ∉ [' ', '\n', '\r', '\t', ']', '\x7d', '"', '[', '\x7b', 't', 'f', 'n'] := by
    intro negative whole more hwhole
    cases negative with
    | true => exact ⟨'-', _, rfl, hminus⟩
    | false =>
      have hdigits := isDigit_of_isWhole hwhole
      obtain ⟨c, rest, rfl⟩ := List.exists_cons_of_ne_nil hdigits.ne_nil
      exact ⟨c, rest ++ more, rfl, hdigit c (hdigits.isDigit c List.mem_cons_self)⟩
  cases h with
  | int negative hwhole _ => simpa using hsigned negative _ [] hwhole
  | float negative hwhole _ _ => exact hsigned negative _ _ hwhole

theorem IsValue.startsPart {cs : List Char} {j : Json} (h : IsValue cs j) : StartsPart cs := by
  cases h with
  | null => exact ⟨'n', _, rfl, by decide⟩
  | true => exact ⟨'t', _, rfl, by decide⟩
  | false => exact ⟨'f', _, rfl, by decide⟩
  | number h =>
    obtain ⟨c, rest, hc, hnone⟩ := h.exists_head
    refine ⟨c, rest, hc, fun hmem => hnone ?_⟩
    exact List.mem_append_left ['"', '[', '\x7b', 't', 'f', 'n'] hmem
  | string h =>
    obtain ⟨h⟩ := h
    exact ⟨'"', _, rfl, by decide⟩
  | emptyList => exact ⟨'[', _, rfl, by decide⟩
  | list => exact ⟨'[', _, rfl, by decide⟩
  | emptyObject => exact ⟨'\x7b', _, rfl, by decide⟩
  | object => exact ⟨'\x7b', _, rfl, by decide⟩

/-- White space ends a number, and so does what ends a number behind it. -/
theorem endsNumber_space {space rest : List Char} (h : IsSpace space) (hrest : EndsNumber rest) :
    EndsNumber (space ++ rest) := by
  cases space with
  | nil => exact hrest
  | cons c space =>
    have hc := h c List.mem_cons_self
    simp only [List.mem_cons, List.not_mem_nil, or_false] at hc
    obtain rfl | rfl | rfl | rfl := hc <;> exact endsNumber_cons (by decide) (by decide)

theorem endsNumber_comma (rest : List Char) : EndsNumber (',' :: rest) :=
  endsNumber_cons (by decide) (by decide)

theorem readValue?_number {cs : List Char} {j : Json} (h : IsNumber cs j) (fuel : Nat)
    {rest : List Char} (hrest : EndsNumber rest) :
    readValue? (fuel + 1) (cs ++ rest) = some (j, rest) := by
  have hread := h.number?_eq hrest
  obtain ⟨c, tail, rfl, hnone⟩ := h.exists_head
  simp only [List.mem_cons, List.not_mem_nil, or_false, not_or] at hnone
  simpa [readValue?, hnone] using hread

/-- What stands between brackets is no closing bracket, since a part starts with none. -/
theorem readValue?_items {cs : List Char} (h : StartsPart (skipSpace cs)) (fuel : Nat) :
    readValue? (fuel + 1) ('[' :: cs) =
      (readItems? fuel (skipSpace cs)).map fun (items, rest) => (.list items, rest) := by
  rw [readValue?]
  obtain ⟨c, rest, hc, hnone⟩ := h
  rw [hc]
  split
  · rename_i heq
    cases heq
    exact absurd (by decide) hnone
  · rfl

theorem readValue?_members {cs : List Char} (h : StartsPart (skipSpace cs)) (fuel : Nat) :
    readValue? (fuel + 1) ('\x7b' :: cs) =
      (readMembers? fuel (skipSpace cs)).map fun (members, rest) =>
        (.object (Assoc.ofList (· == ·) members), rest) := by
  rw [readValue?]
  obtain ⟨c, rest, hc, hnone⟩ := h
  rw [hc]
  split
  · rename_i heq
    cases heq
    exact absurd (by decide) hnone
  · rfl

/-! ## The induction

What is shown of each part of a text: a value is taken off, an element up to the white space behind it, and
items and members up to the closing mark. -/

/-- A value is taken off the front of any text, given enough fuel. -/
def TakesValue (cs : List Char) (j : Json) : Prop :=
  ∀ fuel rest, 2 * cs.length ≤ fuel → EndsNumber rest → readValue? fuel (cs ++ rest) = some (j, rest)

/-- A value is taken off behind the white space in front of it. -/
def TakesElement (cs : List Char) (j : Json) : Prop :=
  ∀ fuel rest, 2 * cs.length ≤ fuel → EndsNumber rest → StartsPart (skipSpace (cs ++ rest)) ∧
    ∃ space, IsSpace space ∧ readValue? fuel (skipSpace (cs ++ rest)) = some (j, space ++ rest)

def TakesItems (cs : List Char) (items : List Json) : Prop :=
  ∀ fuel rest, 2 * cs.length + 1 ≤ fuel → StartsPart (skipSpace (cs ++ ']' :: rest)) ∧
    readItems? fuel (skipSpace (cs ++ ']' :: rest)) = some (items, rest)

/-- A member is taken off, and it depends on the mark behind it whether there are more of them. -/
def TakesMember (cs : List Char) (member : String × Json) : Prop :=
  ∀ fuel rest, 2 * cs.length ≤ fuel → EndsNumber rest → StartsPart (skipSpace (cs ++ rest)) ∧
    readMembers? (fuel + 1) (skipSpace (cs ++ rest)) =
      match skipSpace rest with
      | ',' :: rest =>
        (readMembers? fuel (skipSpace rest)).map fun (members, rest) => (member :: members, rest)
      | '\x7d' :: rest => some ([member], rest)
      | _ => none

def TakesMembers (cs : List Char) (members : List (String × Json)) : Prop :=
  ∀ fuel rest, 2 * cs.length + 1 ≤ fuel → StartsPart (skipSpace (cs ++ '\x7d' :: rest)) ∧
    readMembers? fuel (skipSpace (cs ++ '\x7d' :: rest)) = some (members, rest)

theorem takesValue_word {cs : List Char} {j : Json} (hne : cs ≠ [])
    (h : ∀ fuel rest, readValue? (fuel + 1) (cs ++ rest) = some (j, rest)) : TakesValue cs j := by
  intro fuel rest hfuel _
  have hlength := List.length_pos_iff.mpr hne
  obtain ⟨fuel, rfl⟩ := Nat.exists_eq_add_of_le' (by omega : 1 ≤ fuel)
  exact h fuel rest

theorem takesValue_number {cs : List Char} {j : Json} (h : IsNumber cs j) : TakesValue cs j := by
  intro fuel rest hfuel hrest
  have hlength : 1 ≤ cs.length := by
    obtain ⟨c, tail, rfl, -⟩ := h.exists_head
    exact Nat.le_add_left 1 _
  obtain ⟨fuel, rfl⟩ := Nat.exists_eq_add_of_le' (by omega : 1 ≤ fuel)
  exact readValue?_number h fuel hrest

theorem takesValue_string {cs : List Char} {s : String} (h : IsString cs s) :
    TakesValue cs (.text s) := by
  obtain ⟨h⟩ := h
  refine takesValue_word (List.cons_ne_nil _ _) fun fuel rest => ?_
  rw [List.cons_append, List.append_assoc, readValue?, List.singleton_append, string?_body h]
  rfl

theorem takesValue_emptyList {space : List Char} (h : IsSpace space) :
    TakesValue ('[' :: (space ++ [']'])) (.list []) := by
  refine takesValue_word (List.cons_ne_nil _ _) fun fuel rest => ?_
  rw [List.cons_append, List.append_assoc, readValue?, skipSpace_space h]
  rfl

theorem takesValue_emptyObject {space : List Char} (h : IsSpace space) :
    TakesValue ('\x7b' :: (space ++ ['\x7d'])) (.object []) := by
  refine takesValue_word (List.cons_ne_nil _ _) fun fuel rest => ?_
  rw [List.cons_append, List.append_assoc, readValue?, skipSpace_space h]
  rfl

theorem TakesItems.takesValue {cs : List Char} {items : List Json} (h : TakesItems cs items) :
    TakesValue ('[' :: (cs ++ [']'])) (.list items) := by
  intro fuel rest hfuel _
  rw [List.length_cons, List.length_append] at hfuel
  obtain ⟨fuel, rfl⟩ := Nat.exists_eq_add_of_le' (by omega : 1 ≤ fuel)
  obtain ⟨hstart, hread⟩ := h fuel rest (by omega)
  rw [List.cons_append, List.append_assoc, List.singleton_append, readValue?_items hstart, hread]
  rfl

theorem TakesMembers.takesValue {cs : List Char} {members : List (String × Json)}
    (h : TakesMembers cs members) :
    TakesValue ('\x7b' :: (cs ++ ['\x7d'])) (.object (Assoc.ofList (· == ·) members)) := by
  intro fuel rest hfuel _
  rw [List.length_cons, List.length_append] at hfuel
  obtain ⟨fuel, rfl⟩ := Nat.exists_eq_add_of_le' (by omega : 1 ≤ fuel)
  obtain ⟨hstart, hread⟩ := h fuel rest (by omega)
  rw [List.cons_append, List.append_assoc, List.singleton_append, readValue?_members hstart, hread]
  rfl

theorem TakesValue.element {before cs after : List Char} {j : Json} (h : TakesValue cs j)
    (hstart : StartsPart cs) (hbefore : IsSpace before) (hafter : IsSpace after) :
    TakesElement (before ++ cs ++ after) j := by
  intro fuel rest hfuel hrest
  rw [List.length_append, List.length_append] at hfuel
  have hskip : skipSpace (before ++ cs ++ after ++ rest) = cs ++ (after ++ rest) := by
    rw [List.append_assoc, List.append_assoc, skipSpace_space hbefore, (hstart.append _).skipSpace]
  rw [hskip]
  exact ⟨hstart.append _, after, hafter, h fuel _ (by omega) (endsNumber_space hafter hrest)⟩

theorem TakesElement.last {cs : List Char} {j : Json} (h : TakesElement cs j) :
    TakesItems cs [j] := by
  intro fuel rest hfuel
  obtain ⟨fuel, rfl⟩ := Nat.exists_eq_add_of_le' (by omega : 1 ≤ fuel)
  obtain ⟨hstart, space, hspace, hread⟩ :=
    h fuel (']' :: rest) (by omega) (endsNumber_cons (by decide) (by decide))
  refine ⟨hstart, ?_⟩
  rw [readItems?, hread]
  dsimp only
  rw [skipSpace_space hspace]
  rfl

theorem TakesElement.more {cs more : List Char} {j : Json} {items : List Json}
    (h : TakesElement cs j) (hmore : TakesItems more items) :
    TakesItems (cs ++ ',' :: more) (j :: items) := by
  intro fuel rest hfuel
  rw [List.length_append, List.length_cons] at hfuel
  obtain ⟨fuel, rfl⟩ := Nat.exists_eq_add_of_le' (by omega : 1 ≤ fuel)
  rw [List.append_assoc, List.cons_append]
  obtain ⟨hstart, space, hspace, hread⟩ := h fuel _ (by omega) (endsNumber_comma (more ++ ']' :: rest))
  refine ⟨hstart, ?_⟩
  have hcomma : skipSpace (',' :: (more ++ ']' :: rest)) = ',' :: (more ++ ']' :: rest) := rfl
  obtain ⟨-, hitems⟩ := hmore fuel rest (by omega)
  rw [readItems?, hread]
  simp only [skipSpace_space hspace, hcomma, hitems]
  rfl

theorem TakesElement.member {before key spaces cs : List Char} {s : String} {j : Json}
    (h : TakesElement cs j) (hbefore : IsSpace before) (hkey : IsString key s)
    (hspaces : IsSpace spaces) :
    TakesMember (before ++ key ++ spaces ++ ':' :: cs) (s, j) := by
  intro fuel rest hfuel hrest
  obtain ⟨hkey⟩ := hkey
  rename_i body read
  simp only [List.length_append, List.length_cons] at hfuel
  have hskip : skipSpace (before ++ ('"' :: (body ++ ['"'])) ++ spaces ++ ':' :: cs ++ rest) =
      '"' :: (body ++ '"' :: (spaces ++ ':' :: (cs ++ rest))) := by
    simp only [List.append_assoc, List.cons_append, List.nil_append]
    rw [skipSpace_space hbefore]
    rfl
  have hcolon : skipSpace (spaces ++ ':' :: (cs ++ rest)) = ':' :: (cs ++ rest) := by
    rw [skipSpace_space hspaces]
    rfl
  obtain ⟨-, space, hspace', hread⟩ := h fuel rest (by omega) hrest
  rw [hskip]
  refine ⟨⟨'"', _, rfl, by decide⟩, ?_⟩
  rw [readMembers?, string?_body hkey]
  simp only [hcolon, hread, skipSpace_space hspace'] <;> rfl

theorem TakesMember.last {cs : List Char} {member : String × Json} (h : TakesMember cs member) :
    TakesMembers cs [member] := by
  intro fuel rest hfuel
  obtain ⟨fuel, rfl⟩ := Nat.exists_eq_add_of_le' (by omega : 1 ≤ fuel)
  exact h fuel ('\x7d' :: rest) (by omega) (endsNumber_cons (by decide) (by decide))

theorem TakesMember.more {cs more : List Char} {member : String × Json}
    {members : List (String × Json)} (h : TakesMember cs member)
    (hmore : TakesMembers more members) : TakesMembers (cs ++ ',' :: more) (member :: members) := by
  intro fuel rest hfuel
  rw [List.length_append, List.length_cons] at hfuel
  obtain ⟨fuel, rfl⟩ := Nat.exists_eq_add_of_le' (by omega : 1 ≤ fuel)
  rw [List.append_assoc, List.cons_append]
  obtain ⟨hstart, hread⟩ := h fuel _ (by omega) (endsNumber_comma (more ++ '\x7d' :: rest))
  refine ⟨hstart, ?_⟩
  have hcomma : skipSpace (',' :: (more ++ '\x7d' :: rest)) = ',' :: (more ++ '\x7d' :: rest) := rfl
  obtain ⟨-, hmembers⟩ := hmore fuel rest (by omega)
  rw [hread, hcomma]
  simp only [hmembers]
  rfl

mutual

theorem IsValue.takesValue {cs : List Char} {j : Json} : IsValue cs j → TakesValue cs j
  | .null => takesValue_word (by decide) fun _ _ => rfl
  | .true => takesValue_word (by decide) fun _ _ => rfl
  | .false => takesValue_word (by decide) fun _ _ => rfl
  | .number h => takesValue_number h
  | .string h => takesValue_string h
  | .emptyList h => takesValue_emptyList (isSpace_of_isGap h)
  | .list h => h.takesItems.takesValue
  | .emptyObject h => takesValue_emptyObject (isSpace_of_isGap h)
  | .object h => h.takesMembers.takesValue

theorem IsElement.takesElement {cs : List Char} {j : Json} : IsElement cs j → TakesElement cs j
  | .spaced hbefore h hafter => 
    h.takesValue.element h.startsPart (isSpace_of_isGap hbefore) (isSpace_of_isGap hafter)

theorem IsItems.takesItems {cs : List Char} {items : List Json} :
    IsItems cs items → TakesItems cs items
  | .last h => h.takesElement.last
  | .more h hrest => h.takesElement.more hrest.takesItems

theorem IsMember.takesMember {cs : List Char} {member : String × Json} :
    IsMember cs member → TakesMember cs member
  | .spaced hbefore hkey hspaces _ h =>
    h.takesElement.member (isSpace_of_isGap hbefore) hkey
      fun c hc => hspaces c hc ▸ List.mem_cons_self

theorem IsMembers.takesMembers {cs : List Char} {members : List (String × Json)} :
    IsMembers cs members → TakesMembers cs members
  | .last h => h.takesMember.last
  | .more h hrest => h.takesMember.more hrest.takesMembers

end

/-- A value with white space around it is the value of its text. -/
theorem TakesValue.read?_eq {s : String} {before cs after : List Char} {j : Json}
    (h : TakesValue cs j) (hstart : StartsPart cs) (hbefore : IsSpace before)
    (hafter : IsSpace after) (hs : s.toList = before ++ cs ++ after) : read? s = some j := by
  have hskip : skipSpace (before ++ cs ++ after) = cs ++ after := by
    rw [List.append_assoc, skipSpace_space hbefore, (hstart.append _).skipSpace]
  have hends := endsNumber_space hafter endsNumber_nil
  rw [List.append_nil] at hends
  have hread := h (2 * (cs ++ after).length + 2) after (by rw [List.length_append]; omega) hends
  have hempty : skipSpace after = [] := by
    rw [← List.append_nil after, skipSpace_space hafter]
    rfl
  simp only [read?, hs, hskip, hread, hempty]
  rfl

/-- Portable JSON stands for the value that is read. -/
theorem IsElement.read?_eq {s : String} {j : Json} (h : IsElement s.toList j) :
    read? s = some j := by
  generalize hcs : s.toList = cs at h
  obtain ⟨hbefore, hvalue, hafter⟩ := h
  exact hvalue.takesValue.read?_eq hvalue.startsPart (isSpace_of_isGap hbefore)
    (isSpace_of_isGap hafter) hcs

end Portable

end DocSchema.Json
