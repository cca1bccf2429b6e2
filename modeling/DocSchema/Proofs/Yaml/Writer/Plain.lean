import DocSchema.Proofs.Text.Span
import DocSchema.Proofs.Yaml.Words
import DocSchema.Proofs.Yaml.Writer.Blocks

/-!
# Writing plain texts

A text that can be written plain consists of words, and is written word by word.

## Main definitions

* `IsPlainText`: what of a plain text is left at the start of a word

## Main results

* `Page.exists_words`: what is written of a plain text spells it
* `Writer.writesScalar_plain`, `Writer.writesKey_plain`: plain scalars and keys are read back
-/

namespace DocSchema.Yaml

/-- Printable characters from the start of a word on, in which no colon ends a word and no number
sign starts one. -/
structure IsPlainText (cs : List Char) : Prop where
  nonempty : cs ≠ []
  printable : ∀ c ∈ cs, 32 ≤ c.toNat ∧ c.toNat ≤ 126
  head : cs.head? ≠ some ' ' ∧ cs.head? ≠ some '#'
  last : cs.getLast? ≠ some ' '
  colon : ∀ before after, cs = before ++ ':' :: after → endsWord after.head? = false
  comment : ∀ before after, cs ≠ before ++ ' ' :: '#' :: after

theorem holdsIndicator_append {before after : List Char} {a b : Char}
    (h : holdsIndicator (before ++ a :: b :: after) = false) :
    (b == ':' && wordEndsBefore after) = false ∧ (b == '#' && isSpacing a) = false := by
  induction before with
  | nil =>
    rw [List.nil_append, holdsIndicator] at h
    simp only [Bool.or_eq_false_iff] at h
    exact h.1
  | cons c before ih =>
    refine ih ?_
    match before with
    | [] =>
      rw [List.cons_append, List.nil_append, holdsIndicator] at h
      exact (Bool.or_eq_false_iff.mp h).2
    | d :: before =>
      rw [List.cons_append, List.cons_append, holdsIndicator] at h
      exact (Bool.or_eq_false_iff.mp h).2

theorem isPlainText_of_canBePlain {cs : List Char} (h : canBePlain cs = true) :
    IsPlainText cs ∧ opensWithIndicator cs = false := by
  simp only [canBePlain, Bool.and_eq_true, Bool.not_eq_true', List.isEmpty_eq_false_iff] at h
  obtain ⟨⟨⟨⟨⟨hne, hescape⟩, hmulti⟩, houter⟩, hopens⟩, hholds⟩ := h
  rw [List.any_eq_false] at hescape
  have hprintable : ∀ c ∈ cs, 32 ≤ c.toNat ∧ c.toNat ≤ 126 := by
    intro c hc
    have hplain := hescape c hc
    rw [needsEscape, Bool.not_eq_true', Bool.not_eq_false, Bool.or_eq_true, Bool.and_eq_true,
      decide_eq_true_eq, decide_eq_true_eq, beq_iff_eq] at hplain
    obtain rfl | hrange := hplain
    · have hbreak : isMultiline cs = true := List.any_eq_true.mpr ⟨'\n', hc, rfl⟩
      rw [hmulti] at hbreak
      cases hbreak
    · exact hrange
  rw [hasOuterSpace, Bool.or_eq_false_iff] at houter
  refine ⟨⟨hne, hprintable, ⟨?_, ?_⟩, ?_, ?_, ?_⟩, hopens⟩
  · intro hhead
    rw [hhead] at houter
    cases houter.1
  · intro hhead
    obtain ⟨rest, rfl⟩ := List.head?_eq_some_iff.mp hhead
    cases hopens
  · intro hlast
    rw [hlast] at houter
    cases houter.2
  · rintro before after rfl
    rcases List.eq_nil_or_concat before with rfl | ⟨before, a, rfl⟩
    · rw [List.nil_append, opensWithIndicator] at hopens
      simp only [Bool.or_eq_false_iff, Bool.and_eq_false_iff] at hopens
      obtain ⟨⟨⟨-, hsign⟩, -⟩, -⟩ := hopens
      obtain ⟨⟨-, hfalse⟩, -⟩ | hends := hsign
      · cases hfalse
      · exact hends
    · rw [List.concat_eq_append, List.append_assoc, List.singleton_append] at hholds
      have hcolon := (holdsIndicator_append hholds).1
      rwa [beq_self_eq_true, Bool.true_and] at hcolon
  · rintro before after rfl
    have hcomment := (holdsIndicator_append hholds).2
    cases hcomment

/-- What is left of a plain text where another word starts. -/
theorem IsPlainText.behind {before rest : List Char} (h : IsPlainText (before ++ ' ' :: rest))
    (hspace : rest.head? ≠ some ' ') : IsPlainText rest := by
  have hne : rest ≠ [] := by
    rintro rfl
    refine h.last ?_
    rw [List.getLast?_append]
    rfl
  refine ⟨hne, fun c hc => h.printable c ?_, ⟨hspace, fun hhead => ?_⟩, fun hlast => h.last ?_,
    fun first after hfirst => h.colon (before ++ ' ' :: first) after ?_,
    fun first after hfirst => h.comment (before ++ ' ' :: first) after ?_⟩
  · exact List.mem_append_right _ (List.mem_cons_of_mem _ hc)
  · obtain ⟨after, rfl⟩ := List.head?_eq_some_iff.mp hhead
    exact h.comment before after rfl
  · rw [List.getLast?_append_of_ne_nil _ (List.cons_ne_nil _ _), List.getLast?_cons, hlast]
    rfl
  · rw [hfirst, List.append_assoc, List.cons_append]
  · rw [hfirst, List.append_assoc, List.cons_append]

/-- A plain text starts with a word, behind which nothing is left or a plain text behind spaces. -/
theorem IsPlainText.exists_word {cs : List Char} (h : IsPlainText cs) :
    ∃ w more, cs = w ++ more ∧ IsPlainWord w ∧
      (more = [] ∨ ∃ k rest, more = List.replicate (k + 1) ' ' ++ rest ∧ IsPlainText rest) := by
  obtain ⟨w, more, rfl, hword, hmore⟩ := Text.exists_span (· != ' ') cs
  have hblank : ∀ c ∈ more.head?, c = ' ' := fun c hc => bne_eq_false_iff_eq.mp (hmore c hc)
  have hne : w ≠ [] := by
    rintro rfl
    cases more with
    | nil => exact h.nonempty rfl
    | cons c more => exact h.head.1 (congrArg some (hblank c rfl))
  have hvisible : ∀ c ∈ w, isVisible c = true := by
    intro c hc
    obtain ⟨hlow, hhigh⟩ := h.printable c (List.mem_append_left _ hc)
    have hcode : c.toNat ≠ 32 := fun hcode =>
      bne_iff_ne.mp (hword c hc) (Char.toNat_inj.mp hcode)
    exact isVisible_iff.mpr ⟨by omega, hhigh⟩
  have hhead : w.head? ≠ some '#' := by
    have hcomment := h.head.2
    rwa [List.head?_append_of_ne_nil _ hne] at hcomment
  have hlast : w.getLast? ≠ some ':' := by
    intro hlast
    obtain ⟨before, rfl⟩ := List.getLast?_eq_some_iff.mp hlast
    have hends := h.colon before more (by rw [List.append_assoc, List.singleton_append])
    cases more with
    | nil => cases hends
    | cons c more =>
      rw [hblank c rfl] at hends
      cases hends
  refine ⟨w, more, rfl, ⟨hne, hvisible, hhead, hlast⟩, ?_⟩
  cases more with
  | nil => exact .inl rfl
  | cons c more =>
    obtain rfl := hblank c rfl
    obtain ⟨k, rest, rfl, hrest⟩ := Text.exists_run ' ' more
    refine .inr ⟨k, rest, rfl, ?_⟩
    have hsame : w ++ ' ' :: (List.replicate k ' ' ++ rest) =
        (w ++ List.replicate k ' ') ++ ' ' :: rest := by
      rw [← List.cons_append, ← List.replicate_succ, List.replicate_succ']
      simp only [List.append_assoc, List.singleton_append]
    rw [hsame] at h
    exact h.behind fun hspace => hrest ' ' hspace rfl

namespace Page

/-! ## Words -/

theorem splitWords_word {fuel k : Nat} {w more : List Char} (hne : w ≠ []) (hw : ∀ c ∈ w, c ≠ ' ')
    (hmore : ∀ c ∈ more.head?, c = ' ') :
    splitWords (fuel + 1) (List.replicate k ' ' ++ (w ++ more)) =
      (List.replicate k ' ', w) :: splitWords fuel more := by
  have hempty : (List.replicate k ' ' ++ (w ++ more)).isEmpty = false := by
    rw [List.isEmpty_eq_false_iff]
    intro hnil
    exact hne (List.append_eq_nil_iff.mp (List.append_eq_nil_iff.mp hnil).2).1
  have hhead : ∀ c ∈ (w ++ more).head?, c ≠ ' ' := by
    rw [List.head?_append_of_ne_nil _ hne]
    exact fun c hc => hw c (List.mem_of_mem_head? hc)
  obtain ⟨htake, hdrop⟩ := Text.takeWhile_run k hhead
  have hword : ∀ c ∈ w, (c != ' ') = true := fun c hc => bne_iff_ne.mpr (hw c hc)
  have hblank : ∀ c ∈ more.head?, (c != ' ') = false := fun c hc =>
    bne_eq_false_iff_eq.mpr (hmore c hc)
  rw [splitWords, hempty, if_neg Bool.false_ne_true]
  dsimp only
  rw [htake, hdrop, Text.takeWhile_span hword hblank, Text.dropWhile_span hword hblank]

/-- Where a line may be folded: what is written of spaces stands for them. -/
inductive WritesGap (indent : Nat) (split : Bool) : Nat → List Char → Prop
  | spaces (k : Nat) : WritesGap indent split k (List.replicate k ' ')
  | fold (hsplit : split = true) : WritesGap indent split 1 ('\n' :: List.replicate indent ' ')

theorem WritesGap.eq_spaces {indent k : Nat} {gap : List Char} (h : WritesGap indent false k gap) :
    gap = List.replicate k ' ' := by
  cases h with
  | spaces => rfl
  | fold hsplit => cases hsplit

theorem WritesGap.spells {indent k : Nat} {split : Bool} {gap w cs read : List Char}
    (h : WritesGap indent split (k + 1) gap) (hw : IsPlainWord w) (hrest : SpellsPlain indent cs read) :
    SpellsPlain indent (w ++ (gap ++ cs)) (w ++ (List.replicate (k + 1) ' ' ++ read)) := by
  cases h with
  | spaces => exact .spaces hw (Nat.succ_pos k) hrest
  | fold => exact .fold hw hrest

/-- The line is folded at a single space, or the spaces are written. -/
theorem exists_gap (indent : Nat) (split isFirst isLast : Bool) (k : Nat) {p : Page}
    (hp : p.atIndent = false) :
    ∃ gap, WritesGap indent split k gap ∧ ∃ q : Page, q.atIndent = false ∧ q.chars = p.chars ++ gap ∧
      (if ((List.replicate k ' ').length == 1 && width < p.column && split && !isFirst &&
          !isLast) = true then (p.indentTo indent).inText else p.write (List.replicate k ' ')) = q := by
  split_ifs with hfold
  · simp only [Bool.and_eq_true, List.length_replicate, beq_iff_eq] at hfold
    obtain ⟨⟨⟨⟨rfl, -⟩, hsplit⟩, -⟩, -⟩ := hfold
    exact ⟨_, .fold hsplit, (p.indentTo indent).inText, rfl, (startsLine_indentTo (.inl hp)).2, rfl⟩
  · exact ⟨_, .spaces k, p.write (List.replicate k ' '), hp, chars_write _ p, rfl⟩

/-- Words are written with what stands for the spaces between them. -/
theorem exists_words (indent : Nat) (split isFirst : Bool) {cs : List Char} (h : IsPlainText cs)
    (k fuel : Nat) (hfuel : cs.length < fuel) {p : Page} (hp : p.atIndent = false) :
    ∃ gap out, (words indent split isFirst (splitWords fuel (List.replicate k ' ' ++ cs)) p).chars =
        p.chars ++ (gap ++ out) ∧
      (words indent split isFirst (splitWords fuel (List.replicate k ' ' ++ cs)) p).atIndent = false ∧
      WritesGap indent split k gap ∧ SpellsPlain indent out cs ∧ (split = false → out = cs) := by
  induction hn : cs.length using Nat.strongRecOn generalizing cs k fuel isFirst p with
  | ind length ih =>
    subst hn
    obtain ⟨fuel, rfl⟩ := Nat.exists_eq_add_of_le' (Nat.one_le_of_lt hfuel)
    obtain ⟨w, more, rfl, hw, hmore⟩ := h.exists_word
    have hblank : ∀ c ∈ more.head?, c = ' ' := by
      obtain rfl | ⟨j, rest, rfl, -⟩ := hmore
      · nofun
      · rintro c ⟨⟩
        rfl
    have hnospace : ∀ c ∈ w, c ≠ ' ' := by
      rintro c hc rfl
      cases hw.visible ' ' hc
    rw [splitWords_word hw.nonempty hnospace hblank, words]
    obtain ⟨gap, hwrites, q, hq, hqchars, hqeq⟩ := exists_gap indent split isFirst w.isEmpty k hp
    rw [hqeq]
    have hwritten : (q.write w).atIndent = false := hq
    have hchars : (q.write w).chars = p.chars ++ (gap ++ w) := by
      rw [chars_write, hqchars, List.append_assoc]
    obtain rfl | ⟨j, rest, rfl, hrest⟩ := hmore
    · have hnone : splitWords fuel [] = [] := by
        cases fuel <;> rfl
      rw [hnone, words, List.append_nil]
      exact ⟨gap, w, hchars, hwritten, hwrites, .word hw, fun _ => rfl⟩
    · have hpos := List.length_pos_of_ne_nil hw.nonempty
      simp only [List.length_append, List.length_replicate] at hfuel ih
      obtain ⟨inner, out, hout, hindent, hinner, hspells, hsame⟩ :=
        ih rest.length (by omega) false hrest (j + 1) fuel (by omega) hwritten rfl
      refine ⟨gap, w ++ (inner ++ out), ?_, hindent, hwrites, hinner.spells hw hspells, ?_⟩
      · rw [hout, hchars]
        simp only [List.append_assoc]
      · rintro rfl
        rw [hinner.eq_spaces, hsame rfl]

end Page

/-! ## Scalars -/

namespace Writer

variable {w : WrittenScalar} {v : Value}

theorem style_eq_plain {isKey : Bool} (h : w.style isKey = .plain) :
    w.isImplicit = true ∧ canBePlain w.text.toList = true := by
  rw [WrittenScalar.style] at h
  split_ifs at h with hplain
  simp only [Bool.and_eq_true] at hplain
  exact ⟨hplain.1.2, hplain.2⟩

/-- What is written of a scalar whose form gives it its tag. -/
theorem scalar_plain {isKey : Bool} (h : w.style isKey = .plain) (indent : Nat) (p : Page) :
    p.scalar indent isKey w = p.plain indent (!isKey) w.text.toList := by
  rw [Page.scalar, h, WrittenScalar.writesTag, if_pos rfl, (style_eq_plain h).1]
  rfl

theorem writesScalar_plain {n : Nat} (h : w.style false = .plain) (hkey : v.isKey = true)
    (htag : (Tag.ofPlain w.text).isScalar = true)
    (hvalue : Scalar.value (Tag.ofPlain w.text) w.text = .ok v) : WritesScalar n w v := by
  intro p hp
  obtain ⟨htext, hopens⟩ := isPlainText_of_canBePlain (style_eq_plain h).2
  obtain ⟨gap, out, hchars, hindent, hgap, hspells, -⟩ :=
    Page.exists_words (n + 2) true true htext 0 _ (Nat.lt_succ_self _) (p := (p.write [' ']).inText) rfl
  cases hgap
  rw [List.replicate_zero, List.nil_append] at hchars hindent
  have hlexes := lexesScalar_plain hspells hopens
  rw [String.ofList_toList] at hlexes
  have hne : out ≠ [] := by
    obtain ⟨c, rest, rfl, -⟩ := hspells.exists_head
    exact List.cons_ne_nil c rest
  have hstart : StartsToken out := by
    have hstarts := hspells.startsToken []
    rwa [List.append_nil] at hstarts
  refine ⟨' ' :: out, .inl ⟨?_, ?_⟩, rfl, ?_, _, hlexes.node hstart hne,
    Parser.yieldsKey_scalar hkey htag hvalue⟩
  · rw [scalar_plain h, Page.plain, hp]
    exact hindent
  · rw [scalar_plain h, Page.plain, hp]
    simp only [Bool.not_false, Bool.false_eq_true, if_false]
    rw [hchars, Page.chars_inText, Page.chars_write, List.append_assoc]
    rfl
  · exact List.forall_mem_cons.mpr ⟨rfl, hspells.permitted⟩

/-- A plain key stays on its line. -/
theorem writesKey_plain {n : Nat} (h : w.style true = .plain) (hsimple : w.isSimpleKey = true)
    (hkey : v.isKey = true) (htag : (Tag.ofPlain w.text).isScalar = true)
    (hvalue : Scalar.value (Tag.ofPlain w.text) w.text = .ok v) : WritesKey n w v := by
  intro p hp
  obtain ⟨htext, hopens⟩ := isPlainText_of_canBePlain (style_eq_plain h).2
  have hout : ∀ indent, (p.plain indent false w.text.toList).chars = p.chars ++ w.text.toList ∧
      SpellsPlain indent w.text.toList w.text.toList := by
    intro indent
    obtain ⟨gap, out, hchars, -, hgap, hspells, hsame⟩ :=
      Page.exists_words indent false true htext 0 _ (Nat.lt_succ_self _) (p := p.inText) rfl
    obtain rfl := hsame rfl
    rw [hgap.eq_spaces] at hchars
    rw [Page.plain, hp]
    exact ⟨hchars, hspells⟩
  have hspells : ∀ indent, SpellsPlain indent w.text.toList w.text.toList := fun i => (hout i).2
  have hshort := length_of_isSimpleKey hsimple
  have hline : '\n' ∉ w.text.toList := fun hmem =>
    absurd (htext.printable '\n' hmem) (by decide)
  have hlexes := lexesKey_plain hspells hopens hline (by omega)
  rw [String.ofList_toList] at hlexes
  have hstart := (hspells 0).startsToken []
  rw [List.append_nil] at hstart
  refine ⟨w.text.toList, ?_, htext.nonempty, hstart, (hspells 0).permitted, true, w.text, hlexes,
    Parser.yieldsKey_scalar hkey htag hvalue⟩
  rw [scalar_plain h]
  exact (hout (n + 2)).1

end Writer

end DocSchema.Yaml
