import DocSchema.Proofs.Yaml.Cursor
import DocSchema.Yaml.Token.Quoted

/-!
# Texts between double quotes

A text between double quotes is read piece by piece. A piece is a character that stands for
itself, or an escape. Only a run of spaces is read at once, since a line end might follow it.

## Main definitions

* `IsPiece`: characters that are read at once
* `Spells`: pieces and spaces one after the other
* `ReadsPiece`, `ReadsBody`: one step, and all steps up to the quote

## Main results

* `ReadsBody.cons`: a step in front of others
* `isPiece_plain`, `isPiece_letter`, `isPiece_code`: the pieces of one character
* `readQuoted_of_spells`: a text between double quotes
-/

namespace DocSchema.Yaml

/-- Between double quotes, characters that do not start with spacing are read at once. -/
structure IsPiece (cs read : List Char) : Prop where
  starts : ∃ ch rest, cs = ch :: rest ∧ isSpacing ch = false
  reads : ∀ (fuel : Nat) (before : List (List Char)) (c : Cursor) (tail : List Char),
    c.rest = cs ++ tail →
      quotedBody true (fuel + 1) before c = quotedBody true fuel (read :: before) (c.skip cs.length)

/-- What stands between double quotes and what it is read as. -/
inductive Spells : List Char → List Char → Prop
  | nil : Spells [] []
  | space {cs read : List Char} : Spells cs read → Spells (' ' :: cs) (' ' :: read)
  | piece {first cs firstRead read : List Char} : IsPiece first firstRead → Spells cs read →
    Spells (first ++ cs) (firstRead ++ read)
  /-- A line is cut behind a backslash, and goes on behind some indentation. -/
  | cut {n : Nat} {cs read : List Char} : 0 < n → (∀ ch ∈ cs.head?, isSpacing ch = false) →
    Spells cs read → Spells ('\\' :: '\n' :: (List.replicate n ' ' ++ cs)) read

/-! ## One step after the other -/

/-- In front of a text, characters are read at once. -/
def ReadsPiece (double : Bool) (cs read tail : List Char) : Prop :=
  ∀ (fuel : Nat) (before : List (List Char)) (c : Cursor), c.rest = cs ++ tail →
    quotedBody double (fuel + 1) before c = quotedBody double fuel (read :: before) (c.skip cs.length)

/-- Characters are read up to the quote behind them. -/
def ReadsBody (double : Bool) (cs read tail : List Char) : Prop :=
  ∀ (fuel : Nat) (before : List (List Char)) (c : Cursor), cs.length < fuel → c.rest = cs ++ tail →
    quotedBody double fuel before c = .ok (before.reverse.flatten ++ read, c.skip (cs.length + 1))

/-- A step takes some fuel and leaves enough of it for what is behind. -/
theorem ReadsBody.cons {double : Bool} {first firstRead cs read tail : List Char} (hne : first ≠ [])
    (hfirst : ReadsPiece double first firstRead (cs ++ tail)) (h : ReadsBody double cs read tail) :
    ReadsBody double (first ++ cs) (firstRead ++ read) tail := by
  intro fuel before c hfuel hrest
  obtain ⟨fuel, rfl⟩ := Nat.exists_eq_succ_of_ne_zero (Nat.ne_zero_of_lt hfuel)
  have hpos := List.length_pos_of_ne_nil hne
  rw [List.append_assoc] at hrest
  rw [List.length_append] at hfuel
  rw [hfirst fuel before c hrest, h fuel _ _ (by omega) (Cursor.rest_skip_append hrest),
    ← Cursor.skip_add, List.reverse_cons, List.flatten_append, List.flatten_singleton,
    List.append_assoc, List.length_append, Nat.add_assoc]

/-- A text with a quote in front of it and another one behind. -/
theorem ReadsBody.readQuoted {double : Bool} {cs read tail : List Char} {left right : Char}
    (h : ReadsBody double cs read (right :: tail)) {c : Cursor}
    (hrest : c.rest = left :: (cs ++ right :: tail)) :
    readQuoted double c = .ok (String.ofList read, c.skip (cs.length + 2)) := by
  have hfuel : cs.length < c.rest.length + 1 := by
    rw [hrest, List.length_cons, List.length_append]
    omega
  rw [DocSchema.Yaml.readQuoted, h _ [] _ hfuel (Cursor.rest_next_eq hrest)]
  rfl

/-- Spaces inside a line are read as they are. -/
theorem readsPiece_spaces {n : Nat} {tail : List Char} (hn : n ≠ 0) (hne : tail ≠ [])
    (htail : ∀ ch ∈ tail.head?, isSpacing ch = false) (double : Bool) :
    ReadsPiece double (List.replicate n ' ') (List.replicate n ' ') tail := by
  intro fuel before c hrest
  have hspaceOrTab : ∀ ch ∈ tail.head?, isSpaceOrTab ch = false := fun ch hch =>
    (Bool.or_eq_false_iff.mp (htail ch hch)).1
  have hall : ∀ ch ∈ List.replicate n ' ', isSpaceOrTab ch = true := by
    intro ch hch
    rw [List.eq_of_mem_replicate hch]
    rfl
  have htake := Cursor.takeWhile_eq hrest hall hspaceOrTab
  have hskip := Cursor.skipWhile_eq hrest hall hspaceOrTab
  have hbehind := Cursor.rest_skip_append hrest
  rw [List.length_replicate] at hskip hbehind
  have hbreak : (c.skip n).lineBreak? = none := by
    refine Cursor.lineBreak?_eq_none fun ch hch => ?_
    rw [hbehind] at hch
    exact (Bool.or_eq_false_iff.mp (htail ch hch)).2
  have hspacing : quotedSpacing c = .ok (List.replicate n ' ', c.skip n) := by
    rw [quotedSpacing, htake, hskip]
    dsimp only
    rw [hbreak, hbehind]
    dsimp only
    rw [if_neg (by rwa [List.isEmpty_iff])]
  obtain ⟨n, rfl⟩ := Nat.exists_eq_succ_of_ne_zero hn
  have hpeek : c.peek = some ' ' := Cursor.peek_eq hrest
  rw [quotedBody, hpeek, List.length_replicate]
  show (quotedSpacing c).bind _ = _
  rw [hspacing]
  rfl

theorem ReadsBody.spaces {double : Bool} {cs read tail : List Char}
    (h : ReadsBody double cs read tail) (hne : cs ++ tail ≠ [])
    (hhead : ∀ ch ∈ (cs ++ tail).head?, isSpacing ch = false) (n : Nat) :
    ReadsBody double (List.replicate n ' ' ++ cs) (List.replicate n ' ' ++ read) tail := by
  obtain rfl | hn := Decidable.eq_or_ne n 0
  · exact h
  · exact h.cons (by rwa [ne_eq, List.replicate_eq_nil_iff]) (readsPiece_spaces hn hne hhead double)

/-- Behind the end of a line its indentation is skipped. -/
theorem foldedBreaks_indentation {n : Nat} {c : Cursor} {tail : List Char} (hn : 0 < n)
    (hrest : c.rest = List.replicate n ' ' ++ tail)
    (htail : ∀ ch ∈ tail.head?, isSpacing ch = false) (fuel : Nat) :
    foldedBreaks (fuel + 1) c = .ok ([], c.skip n) := by
  have hseparator : c.atSeparator = false := by
    obtain ⟨n, rfl⟩ := Nat.exists_eq_add_of_lt hn
    rw [Cursor.atSeparator, hrest, Nat.zero_add, List.replicate_succ]
    rfl
  have hskip := @Cursor.skipWhile_eq c _ tail isSpaceOrTab hrest
    (fun ch hch => by rw [List.eq_of_mem_replicate hch]; rfl)
    fun ch hch => (Bool.or_eq_false_iff.mp (htail ch hch)).1
  have hbehind := Cursor.rest_skip_append hrest
  rw [List.length_replicate] at hskip hbehind
  have hbreak : (c.skip n).lineBreak? = none := by
    refine Cursor.lineBreak?_eq_none fun ch hch => ?_
    rw [hbehind] at hch
    exact (Bool.or_eq_false_iff.mp (htail ch hch)).2
  rw [foldedBreaks, hseparator, if_neg Bool.false_ne_true, hskip]
  dsimp only
  rw [hbreak]

/-- A line that is cut behind a backslash goes on behind its indentation. -/
theorem quotedEscape_cut {n : Nat} {c : Cursor} {tail : List Char} (hn : 0 < n)
    (hrest : c.rest = '\n' :: (List.replicate n ' ' ++ tail))
    (htail : ∀ ch ∈ tail.head?, isSpacing ch = false) :
    quotedEscape c = .ok ([], c.skip (n + 1)) := by
  have hpeek : c.peek = some '\n' := Cursor.peek_eq hrest
  have hnext : c.next.rest = List.replicate n ' ' ++ tail := Cursor.rest_next_eq hrest
  have hnone : Assoc.find? '\n' escapeTable = none := by decide
  have hbreak : c.lineBreak? = some ('\n', c.next) := Cursor.lineBreak?_newline hrest
  rw [quotedEscape, hpeek]
  dsimp only
  rw [hnone, hbreak]
  exact foldedBreaks_indentation hn hnext htail _

theorem readsPiece_cut {n : Nat} {tail : List Char} (hn : 0 < n)
    (htail : ∀ ch ∈ tail.head?, isSpacing ch = false) :
    ReadsPiece true ('\\' :: '\n' :: List.replicate n ' ') [] tail := by
  intro fuel before c hrest
  have hpeek : c.peek = some '\\' := Cursor.peek_eq hrest
  rw [quotedBody, hpeek]
  show (quotedEscape c.next).bind _ = _
  rw [quotedEscape_cut hn (Cursor.rest_next_eq hrest) htail, List.length_cons, List.length_cons,
    List.length_replicate]
  rfl

theorem readsBody_nil (tail : List Char) : ReadsBody true [] [] ('"' :: tail) := by
  intro fuel before c hfuel hrest
  obtain ⟨fuel, rfl⟩ := Nat.exists_eq_succ_of_ne_zero (Nat.ne_zero_of_lt hfuel)
  have hpeek : c.peek = some '"' := Cursor.peek_eq hrest
  rw [quotedBody, hpeek, List.append_nil]
  rfl

/-- Spaces are read at once, so the induction is on what stands behind a run of them. -/
theorem Spells.readsBody_spaces {cs read : List Char} (h : Spells cs read) (tail : List Char)
    (n : Nat) : ReadsBody true (List.replicate n ' ' ++ cs) (List.replicate n ' ' ++ read)
      ('"' :: tail) := by
  induction h generalizing n with
  | nil => exact (readsBody_nil tail).spaces nofun (by rintro ch ⟨⟩; rfl) n
  | space _ ih =>
    have hsucc := ih (n + 1)
    rwa [List.replicate_succ', List.append_assoc, List.append_assoc] at hsucc
  | piece hfirst _ ih =>
    obtain ⟨ch, rest, rfl, hch⟩ := hfirst.starts
    have hbody := (ih 0).cons (List.cons_ne_nil ch rest)
      fun fuel before c hrest => hfirst.reads fuel before c _ hrest
    exact hbody.spaces nofun (by rintro d ⟨⟩; exact hch) n
  | @cut k cs read hk hhead _ ih =>
    have hstart : ∀ ch ∈ (cs ++ '"' :: tail).head?, isSpacing ch = false := by
      cases cs with
      | nil =>
        rintro ch ⟨⟩
        rfl
      | cons d cs => exact hhead
    have hbody := (ih 0).cons (List.cons_ne_nil '\\' _) (readsPiece_cut hk hstart)
    exact hbody.spaces nofun (by rintro ch ⟨⟩; rfl) n

/-- A text between double quotes. -/
theorem readQuoted_of_spells {cs read tail : List Char} (h : Spells cs read) {c : Cursor}
    (hrest : c.rest = '"' :: (cs ++ '"' :: tail)) :
    readQuoted true c = .ok (String.ofList read, c.skip (cs.length + 2)) :=
  (h.readsBody_spaces tail 0).readQuoted hrest

/-! ## Pieces -/

/-- A character that stands for itself. -/
theorem isPiece_plain {ch : Char} (hspacing : isSpacing ch = false) (hquote : ch ≠ '"')
    (hback : ch ≠ '\\') : IsPiece [ch] [ch] where
  starts := ⟨ch, [], rfl, hspacing⟩
  reads fuel before c tail hrest := by
    have hpeek : c.peek = some ch := Cursor.peek_eq hrest
    rw [quotedBody, hpeek]
    dsimp only
    rw [Bool.not_true, Bool.and_false, if_neg Bool.false_ne_true, Bool.and_true,
      if_neg (by rwa [beq_iff_eq]), Bool.and_true, if_neg (by rwa [beq_iff_eq]), hspacing,
      if_neg Bool.false_ne_true]
    rfl

/-- An escape. -/
theorem isPiece_escape {cs read : List Char}
    (h : ∀ (c : Cursor) (tail : List Char), c.rest = cs ++ tail →
      quotedEscape c = .ok (read, c.skip cs.length)) : IsPiece ('\\' :: cs) read where
  starts := ⟨'\\', cs, rfl, rfl⟩
  reads fuel before c tail hrest := by
    have hpeek : c.peek = some '\\' := Cursor.peek_eq hrest
    have hnext : c.next.rest = cs ++ tail := Cursor.rest_next_eq hrest
    rw [quotedBody, hpeek]
    show (quotedEscape c.next).bind _ = _
    rw [h c.next tail hnext]
    rfl

/-- An escape of one letter. -/
theorem isPiece_letter {letter : Char} {code : Nat}
    (h : Assoc.find? letter escapeTable = some code) :
    IsPiece ['\\', letter] [Char.ofNat code] := by
  refine isPiece_escape fun c tail hrest => ?_
  have hpeek : c.peek = some letter := Cursor.peek_eq hrest
  rw [quotedEscape, hpeek]
  dsimp only
  rw [h]
  rfl

/-- An escape of hexadecimal digits, unless it is half of a character. -/
theorem isPiece_code {letter : Char} {width code : Nat} {digits : List Char}
    (hletter : Assoc.find? letter escapeTable = none) (hwidth : escapeWidth? letter = some width)
    (hlength : digits.length = width) (hvalue : hexValue? digits = some code)
    (hvalid : code.isValidChar) : IsPiece ('\\' :: letter :: digits) [Char.ofNat code] := by
  refine isPiece_escape fun c tail hrest => ?_
  have hpeek : c.peek = some letter := Cursor.peek_eq hrest
  have hnext : c.next.rest = digits ++ tail := Cursor.rest_next_eq hrest
  have hcode : codePoint? width c.next = some code := by
    rw [codePoint?, hnext, ← hlength, List.take_left, if_pos rfl, hvalue]
  have hcharacter : ∀ c : Cursor, characterOf code c = .ok (Char.ofNat code, c) := by
    intro c
    have hranges : code < 0xD800 ∨ 0xDFFF < code ∧ code < 0x110000 := hvalid
    rw [characterOf, if_neg (by omega), if_neg (by omega), if_neg (by omega)]
  rw [quotedEscape, hpeek]
  dsimp only
  rw [hletter]
  dsimp only
  rw [hwidth]
  dsimp only
  rw [hcode]
  show (characterOf code (c.skip (width + 1))).bind _ = _
  rw [hcharacter, ← hlength]
  rfl

end DocSchema.Yaml
