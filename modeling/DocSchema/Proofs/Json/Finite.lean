import DocSchema.Proofs.Json.Grammar

/-!
# Which values are written as JSON

A value is written as JSON only if its numbers are finite. The names of other numbers have capital
letters, of which no text that is JSON holds any, unless within a string. So the argument follows
the strings of a text: `outside` drops them, and it may do so part by part, as long as every string
ends in the part in which it begins.

Both sides of the argument are about such parts. A part that the grammar derives is `Clean`: it
closes its strings and has no names outside of them. A part of a written value `Tells` what it must
be like if it has no names.

## Main definitions

* `outside`: the characters of a text that stand outside of strings
* `Clean`, `Tells`

## Main results

* `Grammar.IsElement.clean`: the grammar has no names
* `isText_pretty_iff`: a value is written as JSON exactly when its numbers are finite
-/

namespace DocSchema.Json

open Grammar
open Number (Binary64)

/-! ## Parts of a text -/

mutual

/-- The characters of a text that stand outside of strings. -/
def outside : List Char → List Char
  | [] => []
  | '"' :: rest => behindQuote rest
  | c :: rest => c :: outside rest

/-- The same from a place within a string on. -/
def behindQuote : List Char → List Char
  | [] => []
  | '"' :: rest => outside rest
  | '\\' :: _ :: rest => behindQuote rest
  | _ :: rest => behindQuote rest

end

/-- Every string that begins in a part of a text ends there. -/
def Closed (cs : List Char) : Prop := ∀ rest, outside (cs ++ rest) = outside cs ++ outside rest

/-- No capital letter of `NaN` and `Infinity` stands outside of strings. -/
structure Nameless (cs : List Char) : Prop where
  notMem_n : 'N' ∉ outside cs
  notMem_i : 'I' ∉ outside cs

/-- A part of a text closes its strings, and tells something if it has no names. -/
structure Tells (cs : List Char) (P : Prop) : Prop where
  closed : Closed cs
  holds : Nameless cs → P

/-- A part of a text closes its strings and has no names. -/
structure Clean (cs : List Char) : Prop where
  closed : Closed cs
  nameless : Nameless cs

theorem outside_append_of_notMem {cs : List Char} (h : '"' ∉ cs) (rest : List Char) :
    outside (cs ++ rest) = cs ++ outside rest := by
  induction cs with
  | nil => rfl
  | cons c cs ih =>
    rw [List.mem_cons, not_or] at h
    rw [List.cons_append, outside, ih h.2, List.cons_append]
    exact fun hc => h.1 hc.symm

theorem outside_of_notMem {cs : List Char} (h : '"' ∉ cs) : outside cs = cs := by
  simpa [outside] using outside_append_of_notMem h []

theorem closed_of_notMem {cs : List Char} (h : '"' ∉ cs) : Closed cs := by
  intro rest
  rw [outside_append_of_notMem h, outside_of_notMem h]

theorem clean_of_notMem {cs : List Char} (hquote : '"' ∉ cs) (hn : 'N' ∉ cs) (hi : 'I' ∉ cs) :
    Clean cs := by
  refine ⟨closed_of_notMem hquote, ?_, ?_⟩
  · rwa [outside_of_notMem hquote]
  · rwa [outside_of_notMem hquote]

theorem Closed.append {cs ds : List Char} (hcs : Closed cs) (hds : Closed ds) :
    Closed (cs ++ ds) := by
  intro rest
  rw [List.append_assoc, hcs, hds, hcs, List.append_assoc]

theorem Closed.nameless_append_iff {cs : List Char} (h : Closed cs) (ds : List Char) :
    Nameless (cs ++ ds) ↔ Nameless cs ∧ Nameless ds := by
  have hmem : ∀ c, c ∉ outside (cs ++ ds) ↔ c ∉ outside cs ∧ c ∉ outside ds := by
    intro c
    rw [h, List.mem_append, not_or]
  constructor
  · rintro ⟨hn, hi⟩
    rw [hmem] at hn hi
    exact ⟨⟨hn.1, hi.1⟩, ⟨hn.2, hi.2⟩⟩
  · rintro ⟨⟨hn, hi⟩, ⟨hn', hi'⟩⟩
    exact ⟨(hmem _).mpr ⟨hn, hn'⟩, (hmem _).mpr ⟨hi, hi'⟩⟩

theorem Clean.append {cs ds : List Char} (hcs : Clean cs) (hds : Clean ds) : Clean (cs ++ ds) :=
  ⟨hcs.closed.append hds.closed,
    (hcs.closed.nameless_append_iff ds).mpr ⟨hcs.nameless, hds.nameless⟩⟩

/-- A mark is put in front of a part. -/
theorem Clean.cons {c : Char} {cs : List Char} (hcs : Clean cs)
    (hc : c ∉ ['"', 'N', 'I']) : Clean (c :: cs) := by
  simp only [List.mem_cons, List.not_mem_nil, or_false, not_or] at hc
  have hmark : Clean [c] := clean_of_notMem (by simpa using Ne.symm hc.1)
    (by simpa using Ne.symm hc.2.1) (by simpa using Ne.symm hc.2.2)
  exact hmark.append hcs

/-! ## The grammar has no names -/

/-- The characters of white space and of numbers. -/
theorem clean_of_forall_mem {cs allowed : List Char} (hcs : ∀ c ∈ cs, c ∈ allowed)
    (hquote : '"' ∉ allowed) (hn : 'N' ∉ allowed) (hi : 'I' ∉ allowed) : Clean cs :=
  clean_of_notMem (fun h => hquote (hcs _ h)) (fun h => hn (hcs _ h)) fun h => hi (hcs _ h)

theorem Grammar.IsSpace.clean {cs : List Char} (h : IsSpace cs) : Clean cs :=
  clean_of_forall_mem h (by decide) (by decide) (by decide)

theorem Grammar.IsDigits.clean {cs : List Char} (h : IsDigits cs) : Clean cs := by
  refine clean_of_notMem ?_ ?_ ?_
  all_goals
    intro hmem
    exact absurd (h.isDigit _ hmem) (by decide)

theorem clean_nil : Clean [] := clean_of_notMem (by simp) (by simp) (by simp)

theorem Grammar.IsWhole.clean {cs : List Char} (h : IsWhole cs) : Clean cs := by
  cases h with
  | zero => exact clean_nil.cons (by decide)
  | digits hdigits _ => exact hdigits.clean

theorem Grammar.IsFraction.clean {cs : List Char} (h : IsFraction cs) : Clean cs := by
  cases h with
  | none => exact clean_nil
  | digits hdigits => exact hdigits.clean.cons (by decide)

theorem clean_of_mem_signs {sign : List Char} (h : sign ∈ [[], ['+'], ['-']]) : Clean sign := by
  simp only [List.mem_cons, List.not_mem_nil, or_false] at h
  rcases h with rfl | rfl | rfl
  · exact clean_nil
  · exact clean_nil.cons (by decide)
  · exact clean_nil.cons (by decide)

theorem Grammar.IsExponent.clean {cs : List Char} (h : IsExponent cs) : Clean cs := by
  cases h with
  | none => exact clean_nil
  | digits hmark hsign hdigits =>
    refine ((clean_of_mem_signs hsign).append hdigits.clean).cons fun hmem => ?_
    simp only [List.mem_cons, List.not_mem_nil, or_false] at hmark
    rcases hmark with rfl | rfl
    · exact absurd hmem (by decide)
    · exact absurd hmem (by decide)

theorem Grammar.IsNumber.clean {cs : List Char} (h : IsNumber cs) : Clean cs := by
  obtain ⟨hsign, hwhole, hfraction, hexponent⟩ := h
  have hsigns : [[], ['-']] ⊆ [[], ['+'], ['-']] := by decide
  have hsign := clean_of_mem_signs (hsigns hsign)
  exact ((hsign.append hwhole.clean).append hfraction.clean).append hexponent.clean

theorem behindQuote_cons {c : Char} (hquote : c ≠ '"') (hback : c ≠ '\\') (rest : List Char) :
    behindQuote (c :: rest) = behindQuote rest := by
  rw [behindQuote]
  · exact hquote
  · exact fun _ _ h _ => hback h

/-- An escape or a plain character leads to no end of a string. -/
theorem behindQuote_of_isCharacter {part : List Char} (h : IsCharacter part) (rest : List Char) :
    behindQuote (part ++ rest) = behindQuote rest := by
  cases h with
  | plain _ hquote hback => exact behindQuote_cons hquote hback rest
  | short _ => rfl
  | @unit a b c d ha hb hc hd =>
    have hquote : '"' ∉ hexDigits := by decide
    have hback : '\\' ∉ hexDigits := by decide
    have hdigit : ∀ x ∈ hexDigits, ∀ rest, behindQuote (x :: rest) = behindQuote rest :=
      fun x hx => behindQuote_cons (ne_of_mem_of_not_mem hx hquote)
        (ne_of_mem_of_not_mem hx hback)
    show behindQuote (a :: b :: c :: d :: rest) = behindQuote rest
    rw [hdigit a ha, hdigit b hb, hdigit c hc, hdigit d hd]

theorem outside_isString {cs : List Char} (h : IsString cs) (rest : List Char) :
    outside (cs ++ rest) = outside rest := by
  obtain @⟨parts, hparts⟩ := h
  show behindQuote (parts.flatten ++ ['"'] ++ rest) = outside rest
  induction parts with
  | nil => rfl
  | cons part parts ih =>
    rw [List.forall_mem_cons] at hparts
    rw [List.flatten_cons, List.append_assoc, List.append_assoc,
      behindQuote_of_isCharacter hparts.1, ← List.append_assoc]
    exact ih hparts.2

theorem Grammar.IsString.clean {cs : List Char} (h : IsString cs) : Clean cs := by
  have hnone : outside cs = [] := by simpa [outside] using outside_isString h []
  refine ⟨fun rest => ?_, ?_, ?_⟩
  · rw [outside_isString h, hnone, List.nil_append]
  · simp [hnone]
  · simp [hnone]

mutual

theorem Grammar.IsValue.clean : ∀ {cs : List Char}, IsValue cs → Clean cs
  | _, .null => clean_of_notMem (by decide) (by decide) (by decide)
  | _, .true => clean_of_notMem (by decide) (by decide) (by decide)
  | _, .false => clean_of_notMem (by decide) (by decide) (by decide)
  | _, .number h => h.clean
  | _, .string h => h.clean
  | _, .emptyList h => (h.clean.append (clean_nil.cons (by decide))).cons (by decide)
  | _, .list h => (h.clean.append (clean_nil.cons (by decide))).cons (by decide)
  | _, .emptyObject h => (h.clean.append (clean_nil.cons (by decide))).cons (by decide)
  | _, .object h => (h.clean.append (clean_nil.cons (by decide))).cons (by decide)

theorem Grammar.IsElement.clean : ∀ {cs : List Char}, IsElement cs → Clean cs
  | _, .spaced hbefore h hafter => (hbefore.clean.append h.clean).append hafter.clean

theorem Grammar.IsItems.clean : ∀ {cs : List Char}, IsItems cs → Clean cs
  | _, .last h => h.clean
  | _, .more h hrest => h.clean.append (hrest.clean.cons (by decide))

theorem Grammar.IsMember.clean : ∀ {cs : List Char}, IsMember cs → Clean cs
  | _, .spaced hbefore hkey hafter h =>
    ((hbefore.clean.append hkey.clean).append hafter.clean).append (h.clean.cons (by decide))

theorem Grammar.IsMembers.clean : ∀ {cs : List Char}, IsMembers cs → Clean cs
  | _, .last h => h.clean
  | _, .more h hrest => h.clean.append (hrest.clean.cons (by decide))

end

/-! ## Written values without names -/

theorem Clean.tells {cs : List Char} (h : Clean cs) {P : Prop} (hP : P) : Tells cs P :=
  ⟨h.closed, fun _ => hP⟩

theorem Tells.imp {cs : List Char} {P Q : Prop} (h : Tells cs P) (hPQ : P → Q) : Tells cs Q :=
  ⟨h.closed, fun hnameless => hPQ (h.holds hnameless)⟩

theorem Tells.append {cs ds : List Char} {P Q : Prop} (hcs : Tells cs P) (hds : Tells ds Q) :
    Tells (cs ++ ds) (P ∧ Q) := by
  refine ⟨hcs.closed.append hds.closed, fun h => ?_⟩
  obtain ⟨hnameless, hnameless'⟩ := (hcs.closed.nameless_append_iff ds).mp h
  exact ⟨hcs.holds hnameless, hds.holds hnameless'⟩

/-- Clean parts around a part do not change what it tells. -/
theorem Tells.between {before cs after : List Char} {P : Prop} (h : Tells cs P)
    (hbefore : Clean before) (hafter : Clean after) : Tells (before ++ cs ++ after) P :=
  (((hbefore.tells trivial).append h).append (hafter.tells trivial)).imp fun hP => hP.1.2

theorem tells_floatChars (x : Binary64) : Tells (floatChars x) (Finite (float x)) := by
  cases x with
  | nan =>
    refine ⟨closed_of_notMem (by decide), fun h => absurd h.notMem_n ?_⟩
    decide
  | infinite negative =>
    cases negative with
    | true =>
      refine ⟨closed_of_notMem (by decide), fun h => absurd h.notMem_i ?_⟩
      decide
    | false =>
      refine ⟨closed_of_notMem (by decide), fun h => absurd h.notMem_i ?_⟩
      decide
  | finite negative magnitude =>
    exact (isNumber_floatChars negative magnitude).clean.tells (.float negative magnitude)

theorem clean_key (key : String) : Clean (textChars key ++ [':', ' ']) :=
  (isString_textChars key).clean.append ((clean_nil.cons (by decide)).cons (by decide))

mutual

theorem tells_prettyChars : ∀ (j : Json) (level : Nat), Tells (prettyChars level j) (Finite j)
  | .null, _ => IsValue.null.clean.tells .null
  | .bool true, _ => IsValue.true.clean.tells (.bool true)
  | .bool false, _ => IsValue.false.clean.tells (.bool false)
  | .int n, _ => (isNumber_intChars n).clean.tells (.int n)
  | .float x, _ => tells_floatChars x
  | .text s, _ => (isString_textChars s).clean.tells (.text s)
  | .list [], _ => (IsValue.emptyList isSpace_nil).clean.tells (.list (by simp))
  | .list (item :: items), level => by
    have hitems := (tells_prettyItems (item :: items) (level + 1)).between
      ((isSpace_newLine (level + 1)).clean.cons (c := '[') (by decide))
      ((isSpace_newLine level).clean.append (clean_nil.cons (c := ']') (by decide)))
    simpa [prettyChars] using hitems.imp Finite.list
  | .object [], _ => (IsValue.emptyObject isSpace_nil).clean.tells (.object (by simp))
  | .object (member :: members), level => by
    have hmembers := (tells_prettyMembers (member :: members) (level + 1)).between
      ((isSpace_newLine (level + 1)).clean.cons (c := '\x7b') (by decide))
      ((isSpace_newLine level).clean.append (clean_nil.cons (c := '\x7d') (by decide)))
    simpa [prettyChars] using hmembers.imp Finite.object

theorem tells_prettyItems : ∀ (items : List Json) (level : Nat),
    Tells (prettyItems level items) (∀ item ∈ items, Finite item)
  | [], _ => clean_nil.tells (by simp)
  | [item], level => (tells_prettyChars item level).imp fun h => by simpa using h
  | item :: next :: items, level => by
    rw [prettyItems_cons_cons, List.forall_mem_cons]
    have hrest := (tells_prettyItems (next :: items) level).between
      ((isSpace_newLine level).clean.cons (c := ',') (by decide)) clean_nil
    simpa using (tells_prettyChars item level).append hrest

theorem tells_prettyMembers : ∀ (members : List (String × Json)) (level : Nat),
    Tells (prettyMembers level members) (∀ member ∈ members, Finite member.2)
  | [], _ => clean_nil.tells (by simp)
  | [(key, value)], level => by
    simpa [prettyMembers] using (tells_prettyChars value level).between (clean_key key) clean_nil
  | (key, value) :: next :: members, level => by
    rw [prettyMembers_cons_cons, List.forall_mem_cons]
    have hvalue := (tells_prettyChars value level).between (clean_key key) clean_nil
    have hrest := (tells_prettyMembers (next :: members) level).between
      ((isSpace_newLine level).clean.cons (c := ',') (by decide)) clean_nil
    simpa using hvalue.append hrest

end

/-- **Which values are written as JSON.** A value is written as JSON, with white space around it,
exactly when all its numbers are finite. -/
theorem isElement_prettyChars_iff (j : Json) {before after : List Char} (hbefore : IsSpace before)
    (hafter : IsSpace after) :
    IsElement (before ++ prettyChars 0 j ++ after) ↔ Finite j := by
  constructor
  · intro h
    exact ((tells_prettyChars j 0).between hbefore.clean hafter.clean).holds h.clean.nameless
  · exact fun h => .spaced hbefore (h.isValue 0) hafter

theorem isText_pretty_iff (j : Json) : IsText j.pretty ↔ Finite j := by
  simpa [IsText, pretty] using isElement_prettyChars_iff j isSpace_nil isSpace_nil

end DocSchema.Json
