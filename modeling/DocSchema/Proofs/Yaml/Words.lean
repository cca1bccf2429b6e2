import DocSchema.Proofs.Yaml.Block
import DocSchema.Proofs.Yaml.Plain
import DocSchema.Yaml.Writer.Style

/-!
# Plain texts outside of brackets

A plain text is a sequence of words with spaces between them, where a single space may also be
written as the start of a new line. What ends it is a line that is not indented enough, or the
colon of a key.

## Main definitions

* `IsPlainWord`, `SpellsPlain`
* `ReadsPlain`: how a text is read from where it stands

## Main results

* `SpellsPlain.readsPlain`: words with spaces and line ends between them
* `lexesScalar_plain`, `lexesKey_plain`: a plain text as a scalar and as a key
-/

namespace DocSchema.Yaml

-- Decisions about the members of a list go through the list and not through all characters.
attribute [local instance (2000)] List.decidableBAll

/-! ## Visible characters -/

/-- The characters of ASCII that are neither spaces nor control characters. -/
def isVisible (c : Char) : Bool := 32 < c.toNat && c.toNat ≤ 126

theorem isVisible_iff {c : Char} : isVisible c = true ↔ 32 < c.toNat ∧ c.toNat ≤ 126 := by
  rw [isVisible, Bool.and_eq_true, decide_eq_true_eq, decide_eq_true_eq]

/-- The characters of ASCII that are no control characters end no line. -/
theorem isBreak_of_printable {c : Char} (h : 32 ≤ c.toNat ∧ c.toNat ≤ 126) : isBreak c = false := by
  simp only [isBreak, Bool.or_eq_false_iff, beq_eq_false_iff_ne]
  omega

theorem isPermitted_of_printable {c : Char} (h : 32 ≤ c.toNat ∧ c.toNat ≤ 126) :
    isPermitted c = true := by
  have hrange : (32 ≤ c.toNat && c.toNat ≤ 126) = true := by
    rw [Bool.and_eq_true, decide_eq_true_eq, decide_eq_true_eq]
    exact h
  rw [isPermitted, hrange]
  simp only [Bool.or_true, Bool.true_or]

theorem unmarked_of_printable {c : Char} (h : 32 ≤ c.toNat ∧ c.toNat ≤ 126) : c.toNat ≠ 0xFEFF := by
  omega

theorem printable_of_isVisible {c : Char} (h : isVisible c = true) : 32 ≤ c.toNat ∧ c.toNat ≤ 126 :=
  (isVisible_iff.mp h).imp_left Nat.le_of_lt

theorem isBreak_of_isVisible {c : Char} (h : isVisible c = true) : isBreak c = false :=
  isBreak_of_printable (printable_of_isVisible h)

theorem isSpacing_of_isVisible {c : Char} (h : isVisible c = true) : isSpacing c = false := by
  obtain ⟨hlow, -⟩ := isVisible_iff.mp h
  have hne : ∀ d : Char, d.toNat ≤ 32 → c ≠ d := by
    rintro d hd rfl
    omega
  rw [isSpacing, isSpaceOrTab, isBreak_of_isVisible h, beq_eq_false_iff_ne.mpr (hne ' ' (by decide)),
    beq_eq_false_iff_ne.mpr (hne '\t' (by decide))]
  rfl

/-! ## Words -/

/-- A word of a plain text: it does not start a comment, and its end does not end a key. -/
structure IsPlainWord (w : List Char) : Prop where
  nonempty : w ≠ []
  visible : ∀ c ∈ w, isVisible c = true
  head : w.head? ≠ some '#'
  last : w.getLast? ≠ some ':'

/-- A plain text has ended in front of these characters. -/
def StopsPlain (cs : List Char) : Prop := ∀ c rest, cs = c :: rest → endsPlain false c rest = true

theorem stopsPlain_of_isSpacing {c : Char} (h : isSpacing c = true) (cs : List Char) :
    StopsPlain (c :: cs) := by
  rintro d rest ⟨⟩
  rw [endsPlain, h, Bool.true_or, Bool.true_or]

theorem endsPlain_word {c : Char} {rest : List Char} (hc : isVisible c = true)
    (hcolon : c = ':' → endsWord rest.head? = false) : endsPlain false c rest = false := by
  rw [endsPlain, isSpacing_of_isVisible hc]
  by_cases h : c = ':'
  · rw [hcolon h]
    simp
  · rw [beq_eq_false_iff_ne.mpr h]
    rfl

theorem plainLength_word {w tail : List Char} (hvisible : ∀ c ∈ w, isVisible c = true)
    (hlast : w.getLast? ≠ some ':') (htail : StopsPlain tail) :
    plainLength false (w ++ tail) = w.length := by
  induction w with
  | nil =>
    cases tail with
    | nil => rfl
    | cons c rest => rw [List.nil_append, plainLength, if_pos (htail c rest rfl), List.length_nil]
  | cons c w ih =>
    rw [List.forall_mem_cons] at hvisible
    have hends : endsPlain false c (w ++ tail) = false := by
      refine endsPlain_word hvisible.1 fun hcolon => ?_
      cases w with
      | nil =>
        rw [hcolon] at hlast
        exact absurd rfl hlast
      | cons d w => exact isSpacing_of_isVisible (hvisible.2 d List.mem_cons_self)
    have hmore : w.getLast? ≠ some ':' := by
      cases w with
      | nil => rintro ⟨⟩
      | cons d w => rwa [List.getLast?_cons_cons] at hlast
    rw [List.cons_append, plainLength, hends, if_neg Bool.false_ne_true, ih hvisible.2 hmore,
      List.length_cons]

/-- A plain text goes on with a word. -/
theorem plainBody_word {w tail : List Char} (h : IsPlainWord w) (htail : StopsPlain tail) {c : Cursor}
    (hrest : c.rest = w ++ tail) (least fuel : Nat) (read : List (List Char)) (spacing : List Char)
    (ended : Bool) :
    plainBody false least (fuel + 1) read spacing ended c =
      (let (more, c', ended') := plainSpacing (c.skip w.length)
      if more.isEmpty || c'.peek == some '#' || (!false && c'.column < least) then
        ((w :: spacing :: read).reverse.flatten, c', ended')
      else plainBody false least fuel (w :: spacing :: read) more ended' c') := by
  have hpeek : (c.peek == some '#') = false := by
    rw [Cursor.peek, hrest, List.head?_append_of_ne_nil _ h.nonempty, beq_eq_false_iff_ne]
    exact h.head
  have hcount : w.length ≠ 0 := fun hzero => h.nonempty (List.eq_nil_of_length_eq_zero hzero)
  have htake : c.rest.take w.length = w := by rw [hrest, List.take_left]
  have hlength : plainLength false c.rest = w.length := by
    rw [hrest, plainLength_word h.visible h.last htail]
  rw [plainBody, hpeek, if_neg Bool.false_ne_true, hlength, if_neg hcount, htake]

/-- A plain text ends with a word if nothing but indentation that is too small stands behind it. -/
theorem plainBody_last {w tail : List Char} (h : IsPlainWord w) (htail : StopsPlain tail)
    {c behind : Cursor} {more : List Char} {ended : Bool} (hrest : c.rest = w ++ tail)
    (hspacing : plainSpacing (c.skip w.length) = (more, behind, ended)) {least : Nat}
    (hstops : more = [] ∨ behind.column < least) (fuel : Nat) (read : List (List Char))
    (spacing : List Char) (earlier : Bool) :
    plainBody false least (fuel + 1) read spacing earlier c =
      (read.reverse.flatten ++ spacing ++ w, behind, ended) := by
  have hends : (more.isEmpty || behind.peek == some '#' || (!false && behind.column < least)) =
      true := by
    obtain rfl | hstops := hstops
    · rfl
    · rw [decide_eq_true hstops]
      exact Bool.or_true _
  rw [plainBody_word h htail hrest, hspacing]
  dsimp only
  rw [if_pos hends, List.reverse_cons, List.reverse_cons, List.flatten_append, List.flatten_append,
    List.flatten_singleton, List.flatten_singleton]

/-- A plain text goes on where spacing leads to a character that starts no comment. -/
theorem plainBody_more {w tail : List Char} (h : IsPlainWord w) (htail : StopsPlain tail)
    {c behind : Cursor} {more : List Char} {ended : Bool} (hrest : c.rest = w ++ tail)
    (hspacing : plainSpacing (c.skip w.length) = (more, behind, ended)) (hne : more ≠ [])
    {first : Char} {rest : List Char} (hbehind : behind.rest = first :: rest)
    (hcomment : first ≠ '#') {least : Nat} (hleast : least ≤ behind.column) (fuel : Nat)
    (read : List (List Char)) (spacing : List Char) (earlier : Bool) :
    plainBody false least (fuel + 1) read spacing earlier c =
      plainBody false least fuel (w :: spacing :: read) more ended behind := by
  have hgoes : (more.isEmpty || behind.peek == some '#' || (!false && behind.column < least)) =
      false := by
    rw [List.isEmpty_eq_false_iff.mpr hne, Cursor.peek_eq hbehind,
      decide_eq_false (Nat.not_lt.mpr hleast),
      beq_eq_false_iff_ne.mpr (by rwa [ne_eq, Option.some.injEq])]
    rfl
  rw [plainBody_word h htail hrest, hspacing]
  dsimp only
  rw [hgoes, if_neg Bool.false_ne_true]

/-! ## Spacing -/

theorem plainSpacing_spaces {k : Nat} {c : Cursor} {tail : List Char}
    (hrest : c.rest = List.replicate k ' ' ++ tail)
    (htail : ∀ ch ∈ tail.head?, ch ≠ ' ' ∧ isBreak ch = false) :
    plainSpacing c = (List.replicate k ' ', c.skip k, false) := by
  have hbehind := Cursor.rest_skip_append hrest
  rw [List.length_replicate] at hbehind
  have hspaces : c.takeWhile (· == ' ') = List.replicate k ' ' :=
    Cursor.takeWhile_eq hrest (fun ch hch => by rw [List.eq_of_mem_replicate hch]; rfl)
      fun ch hch => beq_eq_false_iff_ne.mpr (htail ch hch).1
  have hbreak : (c.skip k).lineBreak? = none :=
    Cursor.lineBreak?_eq_none fun ch hch => (htail ch (hbehind ▸ hch)).2
  rw [plainSpacing, hspaces, Cursor.skipSpaces_eq hrest fun ch hch => (htail ch hch).1]
  dsimp only
  rw [hbreak]

/-- The end of a line with the indentation behind it. Only in front of a separator it stands for
nothing. -/
theorem plainSpacing_line {d : Nat} {c : Cursor} {tail : List Char}
    (hrest : c.rest = '\n' :: (List.replicate d ' ' ++ tail)) (htail : StartsToken tail) :
    ∃ more, plainSpacing c = (more, c.skip (d + 1), true) ∧ (0 < d → more = [' ']) := by
  have htake : c.takeWhile (· == ' ') = [] := by
    rw [Cursor.takeWhile, hrest]
    rfl
  have hskip : c.skipSpaces = c := by
    rw [Cursor.skipSpaces, Cursor.skipWhile, hrest]
    rfl
  have hbreak : c.lineBreak? = some ('\n', c.next) := Cursor.lineBreak?_newline hrest
  have hnext : c.next.rest = List.replicate d ' ' ++ tail := Cursor.rest_next_eq hrest
  have hbehind := Cursor.rest_skip_append hnext
  rw [List.length_replicate] at hbehind
  have hnone : (c.next.skip d).lineBreak? = none :=
    Cursor.lineBreak?_eq_none fun ch hch => (htail ch (hbehind ▸ hch)).2.2
  have hbreaks : plainBreaks (c.next.rest.length + 1) c.next = ([], c.next.skip d, false) := by
    rw [plainBreaks, Cursor.skipSpaces_eq hnext fun ch hch => (htail ch hch).1]
    dsimp only
    rw [hnone]
  rw [plainSpacing, htake, hskip]
  dsimp only
  rw [hbreak]
  dsimp only
  by_cases hseparator : c.next.atSeparator = true
  · rw [if_pos hseparator]
    cases d with
    | zero => exact ⟨[], rfl, fun h => absurd h (Nat.lt_irrefl 0)⟩
    | succ d =>
      rw [Cursor.atSeparator, hnext, List.replicate_succ] at hseparator
      cases hseparator
  · rw [if_neg hseparator, hbreaks]
    exact ⟨[' '], rfl, fun _ => rfl⟩

/-! ## Texts -/

/-- Words with spaces between them, as they are written and as they are read. A single space may
be written as the start of a line. -/
inductive SpellsPlain (indent : Nat) : List Char → List Char → Prop
  | word {w : List Char} (hw : IsPlainWord w) : SpellsPlain indent w w
  | spaces {w cs read : List Char} {k : Nat} (hw : IsPlainWord w) (hk : 0 < k)
    (hrest : SpellsPlain indent cs read) :
    SpellsPlain indent (w ++ (List.replicate k ' ' ++ cs)) (w ++ (List.replicate k ' ' ++ read))
  | fold {w cs read : List Char} (hw : IsPlainWord w) (hrest : SpellsPlain indent cs read) :
    SpellsPlain indent (w ++ '\n' :: (List.replicate indent ' ' ++ cs)) (w ++ ' ' :: read)

theorem SpellsPlain.exists_word {indent : Nat} {cs read : List Char} (h : SpellsPlain indent cs read) :
    ∃ w more text, IsPlainWord w ∧ cs = w ++ more ∧ read = w ++ text ∧
      (∀ c ∈ more.head?, c = ' ' ∨ c = '\n') ∧ (text = [] ∨ text.head? = some ' ') := by
  cases h with
  | word hw => exact ⟨cs, [], [], hw, (List.append_nil _).symm, (List.append_nil _).symm, nofun,
      .inl rfl⟩
  | @spaces w _ _ k hw hk =>
    obtain ⟨k, rfl⟩ := Nat.exists_eq_add_of_le' hk
    refine ⟨w, _, _, hw, rfl, rfl, ?_, .inr rfl⟩
    rintro c ⟨⟩
    exact .inl rfl
  | @fold w _ _ hw =>
    refine ⟨w, _, _, hw, rfl, rfl, ?_, .inr rfl⟩
    rintro c ⟨⟩
    exact .inr rfl

theorem SpellsPlain.exists_head {indent : Nat} {cs read : List Char} (h : SpellsPlain indent cs read) :
    ∃ c rest, cs = c :: rest ∧ isVisible c = true ∧ c ≠ '#' := by
  obtain ⟨w, more, text, hw, rfl, -, -, -⟩ := h.exists_word
  obtain ⟨c, w, rfl⟩ := List.exists_cons_of_ne_nil hw.nonempty
  refine ⟨c, w ++ more, rfl, hw.visible c List.mem_cons_self, ?_⟩
  rintro rfl
  exact hw.head rfl

theorem SpellsPlain.startsToken {indent : Nat} {cs read : List Char} (h : SpellsPlain indent cs read)
    (tail : List Char) : StartsToken (cs ++ tail) := by
  obtain ⟨c, rest, rfl, hc, hcomment⟩ := h.exists_head
  rintro d ⟨⟩
  refine ⟨?_, hcomment, isBreak_of_isVisible hc⟩
  rintro rfl
  cases hc

theorem SpellsPlain.characters {indent : Nat} {cs read : List Char} (h : SpellsPlain indent cs read) :
    ∀ c ∈ cs, isVisible c = true ∨ c = ' ' ∨ c = '\n' := by
  induction h with
  | word hw => exact fun c hc => .inl (hw.visible c hc)
  | spaces hw _ _ ih =>
    intro c hc
    simp only [List.mem_append, List.mem_replicate] at hc
    obtain hc | ⟨-, rfl⟩ | hc := hc
    · exact .inl (hw.visible c hc)
    · exact .inr (.inl rfl)
    · exact ih c hc
  | fold hw _ ih =>
    intro c hc
    simp only [List.mem_append, List.mem_cons, List.mem_replicate] at hc
    obtain hc | rfl | ⟨-, rfl⟩ | hc := hc
    · exact .inl (hw.visible c hc)
    · exact .inr (.inr rfl)
    · exact .inr (.inl rfl)
    · exact ih c hc

theorem SpellsPlain.permitted {indent : Nat} {cs read : List Char} (h : SpellsPlain indent cs read) :
    ∀ c ∈ cs, isPermitted c = true := by
  intro c hc
  obtain hvisible | rfl | rfl := h.characters c hc
  · exact isPermitted_of_printable (printable_of_isVisible hvisible)
  · rfl
  · rfl

theorem isLine_word {w : List Char} (h : ∀ c ∈ w, isVisible c = true) : IsLine w :=
  fun c hc => isBreak_of_isVisible (h c hc)

/-- A text is read as a plain text from wherever it stands, if the spacing behind it ends it. -/
def ReadsPlain (least : Nat) (tail cs read : List Char) : Prop :=
  ∀ ⦃c behind : Cursor⦄ ⦃more : List Char⦄ ⦃ended : Bool⦄, c.rest = cs ++ tail →
    least ≤ c.column + 1 → plainSpacing (c.skip cs.length) = (more, behind, ended) →
    (more = [] ∨ behind.column < least) → ∀ ⦃fuel : Nat⦄, cs.length < fuel →
    ∀ (before : List (List Char)) (spacing : List Char) (earlier : Bool),
      plainBody false least fuel before spacing earlier c =
        (before.reverse.flatten ++ spacing ++ read, behind, ended)

theorem IsPlainWord.readsPlain {w tail : List Char} (hw : IsPlainWord w) (htail : StopsPlain tail)
    (least : Nat) : ReadsPlain least tail w w := by
  intro c behind more ended hrest _ hspacing hstops fuel hfuel before spacing earlier
  obtain ⟨fuel, rfl⟩ := Nat.exists_eq_add_of_le' (Nat.one_le_of_lt hfuel)
  exact plainBody_last hw htail hrest hspacing hstops fuel before spacing earlier

/-- A word goes in front of a plain text, with a gap between them that is read as spacing and leads
far enough to the right. -/
theorem ReadsPlain.cons {indent least : Nat} {w gap shown cs read tail : List Char}
    (hreads : ReadsPlain least tail cs read) (hspells : SpellsPlain indent cs read)
    (hw : IsPlainWord w) (hstop : StopsPlain (gap ++ (cs ++ tail))) (hne : shown ≠ [])
    (hgap : ∀ c : Cursor, c.rest = w ++ (gap ++ (cs ++ tail)) → least ≤ c.column + 1 →
      ∃ ended, plainSpacing (c.skip w.length) = (shown, c.skip (w.length + gap.length), ended) ∧
        least ≤ (c.skip (w.length + gap.length)).column) :
    ReadsPlain least tail (w ++ (gap ++ cs)) (w ++ (shown ++ read)) := by
  intro c behind more ended hrest hcolumn hspacing hstops fuel hfuel before spacing earlier
  rw [List.append_assoc, List.append_assoc] at hrest
  obtain ⟨ended', hshown, hplace⟩ := hgap c hrest hcolumn
  have hbehind : (c.skip (w.length + gap.length)).rest = cs ++ tail := by
    rw [Cursor.skip_add]
    exact Cursor.rest_skip_append (Cursor.rest_skip_append hrest)
  have hend : plainSpacing ((c.skip (w.length + gap.length)).skip cs.length) =
      (more, behind, ended) := by
    rw [← hspacing, ← Cursor.skip_add, List.length_append, List.length_append, Nat.add_assoc]
  have hpos := List.length_pos_of_ne_nil hw.nonempty
  rw [List.length_append, List.length_append] at hfuel
  obtain ⟨fuel, rfl⟩ := Nat.exists_eq_add_of_le' (Nat.one_le_of_lt hfuel)
  obtain ⟨first, rest, rfl, -, hcomment⟩ := hspells.exists_head
  rw [plainBody_more hw hstop hrest hshown hne hbehind hcomment hplace,
    hreads hbehind (by omega) hend hstops (by omega), List.reverse_cons, List.reverse_cons]
  simp only [List.flatten_append, List.flatten_singleton, List.append_assoc]

/-- A plain text is read up to where its last word ends it. -/
theorem SpellsPlain.readsPlain {indent least : Nat} {cs read tail : List Char}
    (h : SpellsPlain indent cs read) (hindent : 0 < indent) (hleast : least ≤ indent)
    (htail : StopsPlain tail) : ReadsPlain least tail cs read := by
  induction h with
  | word hw => exact hw.readsPlain htail least
  | @spaces w cs read k hw hk hspells ih =>
    have hstop : StopsPlain (List.replicate k ' ' ++ (cs ++ tail)) := by
      obtain ⟨k, rfl⟩ := Nat.exists_eq_add_of_le' hk
      exact stopsPlain_of_isSpacing rfl _
    have hne : List.replicate k ' ' ≠ [] := by simpa using Nat.ne_of_gt hk
    refine ih.cons hspells hw hstop hne fun c hrest hcolumn => ⟨false, ?_, ?_⟩
    · rw [Cursor.skip_add, List.length_replicate]
      refine plainSpacing_spaces (Cursor.rest_skip_append hrest) fun d hd => ?_
      obtain ⟨hspace, -, hbreak⟩ := hspells.startsToken tail d hd
      exact ⟨hspace, hbreak⟩
    · have hpos := List.length_pos_of_ne_nil hw.nonempty
      rw [Cursor.skip_add, List.length_replicate,
        Cursor.column_skip_spaces (Cursor.rest_skip_append hrest),
        Cursor.column_skip hrest (isLine_word hw.visible)
          fun d hd => unmarked_of_printable (printable_of_isVisible (hw.visible d hd))]
      omega
  | @fold w cs read hw hspells ih =>
    have hreads : ReadsPlain least tail (w ++ ('\n' :: List.replicate indent ' ' ++ cs))
        (w ++ ([' '] ++ read)) := by
      refine ih.cons hspells hw (stopsPlain_of_isSpacing rfl _) (List.cons_ne_nil _ _)
        fun c hrest _ => ⟨true, ?_, ?_⟩
      · obtain ⟨gap, hgap, hblank⟩ :=
          plainSpacing_line (Cursor.rest_skip_append hrest) (hspells.startsToken tail)
        rw [hgap, hblank hindent, ← Cursor.skip_add, List.length_cons, List.length_replicate]
      · obtain ⟨-, hplace, -⟩ := Cursor.skip_line hrest
        rw [Nat.add_assoc, Nat.add_comm 1] at hplace
        rwa [List.length_cons, List.length_replicate, hplace]
    exact hreads

/-! ## Openings -/

namespace Lexer

variable {r : Lexer} {indents : List Nat} {ts : List Token} {column : Nat} {allowed : Bool}

theorem leaveSlot_same {l : Lexer} (h : r.leaveSlot = .ok l) :
    l.cursor = r.cursor ∧ l.inFlow = r.inFlow ∧ l.nextIndent = r.nextIndent := by
  rw [leaveSlot] at h
  split at h
  · obtain ⟨k, hdrop, hk⟩ := Except.bind_eq_ok_iff.mp h
    rw [dropPending] at hdrop
    split at hdrop
    · cases hdrop
    · cases hdrop
      cases hk
      exact ⟨rfl, rfl, rfl⟩
  · cases h
    exact ⟨rfl, rfl, rfl⟩

/-- What is read as a plain text is one token. -/
theorem readsScalar_plain {cs : List Char} {c : Cursor} {ended : Bool}
    (hdispatch : r.dispatch = r.plain)
    (hread : readPlain r.inFlow r.nextIndent r.cursor = (String.ofList cs, c, ended)) :
    r.ReadsScalar true (String.ofList cs) c ended := by
  rw [ReadsScalar, hdispatch, plain]
  cases hslot : r.leaveSlot with
  | error fault => rfl
  | ok l =>
    obtain ⟨hcursor, hflow, hnext⟩ := leaveSlot_same hslot
    have hsame : readPlain l.inFlow l.nextIndent l.cursor = (String.ofList cs, c, ended) := by
      rw [hcursor, hflow, hnext, hread]
    rw [Except.ok_bind, Except.ok_bind, hsame]

/-- No separator of documents starts with a word that does not. -/
theorem atSeparator_word {c : Cursor} {w more : List Char} (hrest : c.rest = w ++ more) (hne : w ≠ [])
    (hhyphens : "---".toList.isPrefixOf w = false) (hpoints : "...".toList.isPrefixOf w = false)
    (hmore : ∀ ch ∈ more.head?, ch ≠ '-' ∧ ch ≠ '.') : c.atSeparator = false := by
  have hboth : ∀ ch, ch = '-' ∨ ch = '.' → [ch, ch, ch].isPrefixOf w = false →
      ∀ rest, w ++ more ≠ ch :: ch :: ch :: rest := by
    intro ch hch hmarks rest heq
    have hhead : more.head? ≠ some ch := by
      intro hhead
      obtain ⟨h₁, h₂⟩ := hmore ch hhead
      exact hch.elim h₁ h₂
    match w, hne with
    | [_], _ =>
      obtain ⟨-, rfl⟩ := List.cons.inj heq
      exact hhead rfl
    | [_, _], _ =>
      obtain ⟨-, heq⟩ := List.cons.inj heq
      obtain ⟨-, rfl⟩ := List.cons.inj heq
      exact hhead rfl
    | a :: b :: d :: w, _ =>
      obtain ⟨ha, heq⟩ := List.cons.inj heq
      obtain ⟨hb, heq⟩ := List.cons.inj heq
      rw [ha, hb, (List.cons.inj heq).1] at hmarks
      simp at hmarks
  rw [Cursor.atSeparator, hrest]
  split
  · next heq => exact absurd heq (hboth '-' (.inl rfl) hhyphens _)
  · next heq => exact absurd heq (hboth '.' (.inr rfl) hpoints _)
  · rfl

/-- A character that opens a plain text outside of brackets: it is no sign, and none of the three
that are signs at the end of a word. -/
structure OpensPlain (c : Char) (next : Option Char) : Prop where
  ne : ∀ d ∈ "#,[]\x7b\x7d&*!|>'\"%@`".toList, (c == d) = false
  goes : ∀ d ∈ ['-', '?', ':'], (c == d && endsWord next) = false

theorem opensPlain_of_opensWithIndicator {c : Char} {w rest : List Char}
    (hhead : w ≠ [] → rest.head? = w.head?) (h : opensWithIndicator (c :: w) = false) :
    OpensPlain c rest.head? := by
  rw [opensWithIndicator] at h
  simp only [Bool.or_eq_false_iff, Bool.and_eq_false_iff] at h
  obtain ⟨⟨⟨hlist, hsign⟩, -⟩, -⟩ := h
  refine ⟨fun d hd => ?_, fun d hd => ?_⟩
  · rw [beq_eq_false_iff_ne]
    rintro rfl
    rw [List.contains_iff_mem.mpr hd] at hlist
    cases hlist
  · rw [Bool.and_eq_false_iff]
    obtain ⟨⟨hquestion, hcolon⟩, hminus⟩ | hends := hsign
    · simp only [List.mem_cons, List.not_mem_nil, or_false] at hd
      obtain rfl | rfl | rfl := hd
      · exact .inl hminus
      · exact .inl hquestion
      · exact .inl hcolon
    · cases w with
      | nil => cases hends
      | cons e w =>
        rw [hhead (List.cons_ne_nil e w)]
        exact .inr hends

theorem OpensPlain.startsPlain {c : Char} {cursor : Cursor} (h : OpensPlain c (cursor.peekAt 1))
    (hpeek : cursor.peek = some c) (hspacing : isSpacing c = false) :
    startsPlain false cursor = true := by
  rw [DocSchema.Yaml.startsPlain, hpeek]
  dsimp only
  rw [hspacing]
  by_cases hspecial : c ∈ ['-', '?', ':']
  · have hends := h.goes c hspecial
    rw [beq_self_eq_true, Bool.true_and] at hends
    rw [hends]
    simp only [List.mem_cons, List.not_mem_nil, or_false] at hspecial
    obtain rfl | rfl | rfl := hspecial <;> rfl
  · have hall : ∀ d ∈ indicators, d ∈ ['-', '?', ':'] ∨ d ∈ "#,[]\x7b\x7d&*!|>'\"%@`".toList := by
      decide
    have hnone : indicators.contains c = false := by
      rw [← Bool.not_eq_true, List.contains_iff_mem]
      intro hmem
      obtain hmem | hmem := hall c hmem
      · exact hspecial hmem
      · exact beq_eq_false_iff_ne.mp (h.ne c hmem) rfl
    rw [hnone]
    rfl

theorem OpensPlain.tokenAt_eq {c : Char} (h : OpensPlain c (r.cursor.peekAt 1))
    (hflow : r.inFlow = false) (hseparator : r.cursor.atSeparator = false)
    (hstarts : DocSchema.Yaml.startsPlain false r.cursor = true) : r.tokenAt c = r.plain := by
  rw [tokenAt, hseparator, hflow]
  simp only [h.ne '%' (by decide), h.ne '[' (by decide), h.ne ']' (by decide), h.ne '\x7b' (by decide),
    h.ne '\x7d' (by decide), h.ne ',' (by decide), h.ne '*' (by decide), h.ne '&' (by decide),
    h.ne '!' (by decide), h.ne '|' (by decide), h.ne '>' (by decide), h.ne '\'' (by decide),
    h.ne '"' (by decide), h.goes '-' (by decide), h.goes '?' (by decide), h.goes ':' (by decide),
    Bool.and_false, Bool.false_and, Bool.false_or, if_neg Bool.false_ne_true]
  rw [hstarts, if_pos rfl]

/-- A word that opens with no sign of its own starts a plain text. -/
theorem AtToken.dispatch_plain {w more : List Char}
    (h : r.AtToken indents ts column allowed (w ++ more)) (hw : IsPlainWord w)
    (hopens : opensWithIndicator w = false) (hmore : ∀ c ∈ more.head?, c ≠ '-' ∧ c ≠ '.') :
    r.dispatch = r.plain := by
  have hmarks := hopens
  obtain ⟨c, w, rfl⟩ := List.exists_cons_of_ne_nil hw.nonempty
  rw [opensWithIndicator, Bool.or_eq_false_iff, Bool.or_eq_false_iff] at hmarks
  have hplain : OpensPlain c (r.cursor.peekAt 1) := by
    rw [Cursor.peekAt_one h.rest]
    exact opensPlain_of_opensWithIndicator (fun hne => List.head?_append_of_ne_nil w hne) hopens
  have hstarts := hplain.startsPlain (Cursor.peek_eq h.rest)
    (isSpacing_of_isVisible (hw.visible c List.mem_cons_self))
  rw [h.dispatch_eq]
  exact hplain.tokenAt_eq h.inFlow
    (atSeparator_word h.rest hw.nonempty hmarks.1.2 hmarks.2 hmore) hstarts

end Lexer

/-! ## Scalars and keys -/

/-- The first word of a text opens with no sign if the text does not. -/
theorem opensWithIndicator_word {w text : List Char}
    (htext : text = [] ∨ text.head? = some ' ') (h : opensWithIndicator (w ++ text) = false) :
    opensWithIndicator w = false := by
  cases w with
  | nil => rfl
  | cons c w =>
    have hends : wordEndsBefore w = true → wordEndsBefore (w ++ text) = true := by
      cases w with
      | nil =>
        intro _
        obtain rfl | hblank := htext
        · rfl
        · rw [List.nil_append, wordEndsBefore, hblank]
          rfl
      | cons d w => exact id
    have hmarks : ∀ mark : List Char, mark.isPrefixOf (c :: w) = true →
        mark.isPrefixOf (c :: (w ++ text)) = true := by
      intro mark hmark
      rw [List.isPrefixOf_iff_prefix] at hmark ⊢
      exact hmark.trans (List.prefix_append (c :: w) text)
    rw [List.cons_append, opensWithIndicator] at h
    rw [opensWithIndicator]
    simp only [Bool.or_eq_false_iff, Bool.and_eq_false_iff] at h ⊢
    obtain ⟨⟨⟨hlist, hsign⟩, hhyphens⟩, hpoints⟩ := h
    refine ⟨⟨⟨hlist, hsign.imp_right fun hfalse => ?_⟩, ?_⟩, ?_⟩
    · exact Bool.eq_false_iff.mpr fun htrue => Bool.eq_false_iff.mp hfalse (hends htrue)
    · exact Bool.eq_false_iff.mpr fun htrue => Bool.eq_false_iff.mp hhyphens (hmarks _ htrue)
    · exact Bool.eq_false_iff.mpr fun htrue => Bool.eq_false_iff.mp hpoints (hmarks _ htrue)

/-- What is known of a lexer at a plain text. -/
theorem SpellsPlain.dispatch_eq {indent : Nat} {cs read tail : List Char}
    (h : SpellsPlain indent cs read) (hopens : opensWithIndicator read = false)
    {r : Lexer} {indents : List Nat} {ts : List Token} {column : Nat} {allowed : Bool}
    (hr : r.AtToken indents ts column allowed (cs ++ tail)) (htail : ∀ c ∈ tail.head?, c ≠ '-' ∧ c ≠ '.') :
    r.dispatch = r.plain := by
  obtain ⟨w, more, text, hw, rfl, rfl, hmore, hends⟩ := h.exists_word
  rw [List.append_assoc] at hr
  refine hr.dispatch_plain hw (opensWithIndicator_word hends hopens) fun c hc => ?_
  cases more with
  | nil => exact htail c hc
  | cons d more =>
    obtain rfl : d = c := Option.some.inj hc
    obtain rfl | rfl := hmore d rfl <;> decide

/-- A plain text behind a sign, with a line behind it that is indented less. -/
theorem lexesScalar_plain {n : Nat} {cs read : List Char} (h : SpellsPlain (n + 2) cs read)
    (hopens : opensWithIndicator read = false) :
    Lexer.LexesScalar n cs true (String.ofList read) := by
  intro r indents ts column d allowed tail hr hindents hcolumn hd htail
  have hdispatch := h.dispatch_eq hopens hr (by rintro c ⟨⟩; decide)
  have hnext : r.nextIndent = n + 1 := by
    rw [Lexer.nextIndent, hr.indents]
    cases indents with
    | nil => cases hindents
    | cons i indents =>
      obtain rfl : i = n := Option.some.inj hindents
      rfl
  obtain ⟨hbehind, hplace, -⟩ := Cursor.skip_line hr.rest
  obtain ⟨more, hspacing, -⟩ := plainSpacing_line (Cursor.rest_skip_append hr.rest) htail
  have hsame : (r.cursor.skip cs.length).skip (d + 1) = r.cursor.skip (cs.length + 1 + d) := by
    rw [← Cursor.skip_add, Nat.add_assoc, Nat.add_comm 1 d]
  rw [hsame] at hspacing
  have hfuel : cs.length < r.cursor.rest.length + 1 := by
    rw [hr.rest, List.length_append]
    omega
  refine ⟨_, true, Lexer.readsScalar_plain hdispatch ?_, .inr ⟨rfl, rfl⟩⟩
  rw [readPlain, hr.inFlow, hnext, h.readsPlain (Nat.succ_pos _) (Nat.le_succ _)
    (stopsPlain_of_isSpacing rfl _) hr.rest (by rw [hr.column]; omega) hspacing
    (.inr (by rw [hplace]; omega)) hfuel]
  rfl

/-- A plain text of one line in front of a colon. -/
theorem lexesKey_plain {cs : List Char} (h : ∀ indent, SpellsPlain indent cs cs)
    (hopens : opensWithIndicator cs = false)
    (hline : '\n' ∉ cs) (hlength : cs.length ≤ 1024) : Lexer.LexesKey cs true (String.ofList cs) where
  line c hc := by
    obtain hvisible | rfl | rfl := (h 0).characters c hc
    · exact isBreak_of_isVisible hvisible
    · rfl
    · exact absurd hc hline
  unmarked c hc := by
    obtain hvisible | rfl | rfl := (h 0).characters c hc
    · exact unmarked_of_printable (printable_of_isVisible hvisible)
    · decide
    · decide
  short := hlength
  reads r indents ts column tail hr hindents hword := by
    have hdispatch := (h 0).dispatch_eq hopens hr (by rintro c ⟨⟩; decide)
    have hnext : r.nextIndent ≤ r.cursor.column + 1 := by
      rw [Lexer.nextIndent, hr.indents, hr.column]
      cases indents with
      | nil => exact Nat.zero_le _
      | cons i indents => exact Nat.succ_le_succ (hindents i rfl)
    have hstops : StopsPlain (':' :: tail) := by
      rintro c rest ⟨⟩
      rw [endsPlain, hword]
      rfl
    have hspacing : plainSpacing (r.cursor.skip cs.length) = ([], r.cursor.skip cs.length, false) :=
      plainSpacing_spaces (k := 0) (Cursor.rest_skip_append hr.rest) (by rintro c ⟨⟩; decide)
    have hfuel : cs.length < r.cursor.rest.length + 1 := by
      rw [hr.rest, List.length_append]
      omega
    refine Lexer.readsScalar_plain hdispatch ?_
    rw [readPlain, hr.inFlow, (h _).readsPlain (Nat.succ_pos _) (Nat.le_succ r.nextIndent)
      hstops hr.rest hnext hspacing (.inl rfl) hfuel]
    rfl

end DocSchema.Yaml
