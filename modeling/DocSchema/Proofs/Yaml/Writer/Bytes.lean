import DocSchema.Proofs.Text.Base64
import DocSchema.Proofs.Yaml.BlockTexts
import DocSchema.Proofs.Yaml.Writer.Double

/-!
# Writing bytes

Bytes are written in base 64 behind a tag, on lines of a block text. Without bytes there are no
lines, and the text is an empty one between double quotes.

## Main results

* `writesScalar_bytes`, `writesEntryKey_bytes`: bytes are read back
-/

namespace DocSchema.Yaml

-- Decisions about the members of a list go through the list and not through all characters.
attribute [local instance (2000)] List.decidableBAll

/-! ## Lines -/

theorem exists_binaryLines {fuel : Nat} {cs : List Char} (h : cs.length < fuel) :
    ∃ lines : List (List Char), Writer.binaryLines fuel cs = lines.flatMap (· ++ ['\n']) ∧ lines.flatten = cs ∧
      ∀ l ∈ lines, l ≠ [] := by
  induction fuel generalizing cs with
  | zero => exact absurd h (Nat.not_lt_zero _)
  | succ fuel ih =>
    rw [Writer.binaryLines]
    cases cs with
    | nil => exact ⟨[], rfl, rfl, nofun⟩
    | cons c cs =>
      obtain ⟨lines, hlines, hflat, hne⟩ := @ih ((c :: cs).drop 76) (by
        rw [List.length_drop, List.length_cons]
        rw [List.length_cons] at h
        omega)
      refine ⟨(c :: cs).take 76 :: lines, ?_, ?_, List.forall_mem_cons.mpr ⟨List.cons_ne_nil _ _, hne⟩⟩
      · rw [List.isEmpty_cons, if_neg Bool.false_ne_true, hlines, List.flatMap_cons, List.append_assoc]
        rfl
      · rw [List.flatten_cons, hflat, List.take_append_drop]

/-- The text of bytes consists of lines that a block text may hold. -/
theorem exists_lines_binaryText {content : List UInt8} (h : content ≠ []) :
    ∃ (line : List Char) (lines : List (List Char)), (Writer.binaryText content).toList = (line :: lines).flatMap (· ++ ['\n']) ∧
      (∀ l ∈ line :: lines, l ≠ [] ∧ ∀ c ∈ l, 32 < c.toNat ∧ c.toNat ≤ 126) ∧
      Scalar.binary (Writer.binaryText content) = .ok content := by
  obtain ⟨lines, hlines, hflat, hne⟩ :=
    exists_binaryLines (Nat.lt_succ_self (Text.encodeBase64 content).length)
  have htext : (Writer.binaryText content).toList = lines.flatMap (· ++ ['\n']) := by
    rw [Writer.binaryText, String.toList_ofList, ← hlines]
  have hvisible : ∀ l ∈ lines, ∀ c ∈ l, 32 < c.toNat ∧ c.toNat ≤ 126 := fun l hl c hc =>
    Text.visible_encodeBase64 content c (hflat ▸ List.mem_flatten.mpr ⟨l, hl, hc⟩)
  have hfeed : ∀ l ∈ lines, '\n' ∉ l := fun l hl hmem => absurd (hvisible l hl '\n' hmem) (by decide)
  have hascii : (Writer.binaryText content).toList.all (fun c => decide (c.toNat < 128)) = true := by
    rw [htext, List.all_eq_true]
    refine List.forall_mem_flatMap.mpr fun l hl => List.forall_mem_append.mpr ⟨fun c hc => ?_, by decide⟩
    have hcode := hvisible l hl c hc
    exact decide_eq_true (by omega)
  have hread : Scalar.binary (Writer.binaryText content) = .ok content := by
    rw [Scalar.binary, hascii, if_pos rfl, htext, Text.decodeBase64?_lines hflat hfeed]
  cases lines with
  | nil => exact absurd hflat.symm (Text.encodeBase64_ne_nil h)
  | cons line lines => exact ⟨line, lines, htext, fun l hl => ⟨hne l hl, hvisible l hl⟩, hread⟩

theorem isBlockLine_of_visible {l : List Char} (hne : l ≠ [])
    (h : ∀ c ∈ l, 32 < c.toNat ∧ c.toNat ≤ 126) : IsBlockLine l where
  nonempty := hne
  isLine c hc := isBreak_of_isVisible (isVisible_iff.mpr (h c hc))
  unmarked c hc := unmarked_of_printable (printable_of_isVisible (isVisible_iff.mpr (h c hc)))
  starts c hc := by
    have hcode := (h c (List.mem_of_mem_head? hc)).1
    rintro rfl
    exact absurd hcode (by decide)

/-! ## The page -/

namespace Page

variable {p : Page} {indent : Nat}

/-- The rest of a line of a block text. -/
theorem blockBody_line {l : List Char} (h : '\n' ∉ l) (hcolumn : 0 < p.column) (rest : List Char) :
    ∃ q : Page, blockBody indent (l ++ '\n' :: rest) p = blockBody indent rest q ∧ q.StartsLine 0 ∧
      q.chars = p.chars ++ (l ++ ['\n']) := by
  induction l generalizing p with
  | nil => exact ⟨p.breakLine, rfl, ⟨rfl, rfl, rfl⟩, chars_breakLine p⟩
  | cons c l ih =>
    rw [List.mem_cons, not_or] at h
    obtain ⟨q, hq, hstarts, hchars⟩ := ih (p := p.write [c]) h.2 (by rw [column_write]; omega)
    refine ⟨q, ?_, hstarts, ?_⟩
    · rw [List.cons_append, blockBody, if_neg (Nat.ne_of_gt hcolumn)]
      · exact hq
      · exact fun heq => h.1 heq.symm
    · rw [hchars, chars_write, List.append_assoc]
      rfl

/-- The lines of a block text. -/
theorem blockBody_lines (hindent : 0 < indent) {lines : List (List Char)}
    (h : ∀ l ∈ lines, l ≠ [] ∧ '\n' ∉ l) (hp : p.StartsLine 0) :
    (blockBody indent (lines.flatMap (· ++ ['\n'])) p).StartsLine 0 ∧
      (blockBody indent (lines.flatMap (· ++ ['\n'])) p).chars =
        p.chars ++ lines.flatMap fun l => List.replicate indent ' ' ++ (l ++ ['\n']) := by
  induction lines generalizing p with
  | nil => exact ⟨hp, (List.append_nil _).symm⟩
  | cons l lines ih =>
    rw [List.forall_mem_cons] at h
    obtain ⟨hline, hindented⟩ := startsLine_indentTo_of_lt (d := indent) hp.atIndent
      (by rwa [hp.column])
    rw [hp.column, Nat.sub_zero] at hindented
    obtain ⟨c, l, rfl⟩ := List.exists_cons_of_ne_nil h.1.1
    obtain ⟨hc, hl⟩ := not_or.mp fun hor : '\n' = c ∨ '\n' ∈ l => h.1.2 (List.mem_cons.mpr hor)
    obtain ⟨q, hq, hstarts, hchars⟩ := @blockBody_line
      ((p.indentTo indent).write [c]) indent l hl (by rw [column_write, hline.column]; omega)
      (lines.flatMap (· ++ ['\n']))
    obtain ⟨hend, hout⟩ := ih h.2 hstarts
    have hfirst : blockBody indent (((c :: l) :: lines).flatMap (· ++ ['\n'])) p =
        blockBody indent (lines.flatMap (· ++ ['\n'])) q := by
      rw [List.flatMap_cons, List.cons_append, List.cons_append, List.append_assoc, ← hq, blockBody,
        if_pos hp.column]
      · rfl
      · exact fun heq => hc heq.symm
    rw [hfirst]
    refine ⟨hend, ?_⟩
    rw [hout, hchars, chars_write, hindented]
    simp only [List.flatMap_cons, List.append_assoc, List.cons_append, List.nil_append]

end Page

/-! ## Scalars -/

theorem hasNeighbours_eq_false {related : Char → Char → Bool} {cs : List Char}
    (h : ∀ a ∈ cs, ∀ b, related a b = false) : hasNeighbours related cs = false := by
  induction cs with
  | nil => rfl
  | cons a cs ih =>
    cases cs with
    | nil => rfl
    | cons b cs =>
      rw [List.forall_mem_cons] at h
      rw [hasNeighbours, h.1, ih h.2]
      rfl

/-- The lines of a block text, as they are written and as they are laid out. -/
theorem flatMap_lines (indent : Nat) (line : List Char) (lines : List (List Char)) :
    ((line :: lines).flatMap fun l => List.replicate indent ' ' ++ (l ++ ['\n'])) =
      List.replicate indent ' ' ++ (line ++ (blockRest indent lines ++ ['\n'])) := by
  induction lines generalizing line with
  | nil => simp [blockRest]
  | cons next lines ih =>
    rw [List.flatMap_cons, ih, blockRest_cons]
    simp only [List.append_assoc, List.cons_append, List.nil_append]

namespace Writer

/-- The scalar of bytes. -/
def bytesScalar (content : List UInt8) : WrittenScalar := ⟨"binary", binaryText content, true⟩

theorem needsEscape_of_visible {c : Char} (h : 32 < c.toNat ∧ c.toNat ≤ 126) :
    needsEscape c = false := by
  rw [needsEscape, decide_eq_true (Nat.le_of_lt h.1), decide_eq_true h.2, Bool.and_self,
    Bool.or_true]
  rfl

/-- Some bytes are written as a block of lines. -/
theorem style_bytes {content : List UInt8} (h : content ≠ []) :
    (bytesScalar content).style false = .block := by
  obtain ⟨line, lines, htext, hvisible, -⟩ := exists_lines_binaryText h
  have hchars : ∀ c ∈ (line :: lines).flatMap (· ++ ['\n']),
      c = '\n' ∨ 32 < c.toNat ∧ c.toNat ≤ 126 :=
    List.forall_mem_flatMap.mpr fun l hl => List.forall_mem_append.mpr
      ⟨fun c hc => .inr ((hvisible l hl).2 c hc), by decide⟩
  have hblank : ∀ c ∈ (line :: lines).flatMap (· ++ ['\n']), c ≠ ' ' := by
    intro c hc
    obtain rfl | hcode := hchars c hc
    · decide
    · rintro rfl
      exact absurd hcode.1 (by decide)
  have hblock : canBeBlock (binaryText content).toList = true := by
    rw [htext, canBeBlock]
    have hempty : ((line :: lines).flatMap (· ++ ['\n'])).isEmpty = false := by
      rw [List.isEmpty_eq_false_iff]
      simp
    have hescape : ((line :: lines).flatMap (· ++ ['\n'])).any needsEscape = false := by
      rw [List.any_eq_false]
      intro c hc
      obtain rfl | hcode := hchars c hc
      · exact Bool.false_ne_true
      · rw [needsEscape_of_visible hcode]
        exact Bool.false_ne_true
    have hlast : (((line :: lines).flatMap (· ++ ['\n'])).getLast? != some ' ') = true :=
      bne_iff_ne.mpr fun hlast => hblank ' ' (List.mem_of_getLast? hlast) rfl
    have happart : hasNeighbours (fun a b => a == ' ' && b == '\n')
        ((line :: lines).flatMap (· ++ ['\n'])) = false := hasNeighbours_eq_false fun a ha b => by
      rw [beq_eq_false_iff_ne.mpr (hblank a ha), Bool.false_and]
    rw [hempty, hescape, hlast, happart]
    rfl
  rw [WrittenScalar.style]
  show (if false = true then _ else if canBeBlock (binaryText content).toList = true then _ else _) = _
  rw [if_neg Bool.false_ne_true, if_pos hblock]

/-- Some bytes are written on lines below their tag. -/
theorem exists_lines {content : List UInt8} (h : content ≠ []) (indent : Nat) :
    ∃ (line : List Char) (lines : List (List Char)), (∀ l ∈ line :: lines, IsBlockLine l) ∧
      (∀ l ∈ line :: lines, ∀ c ∈ l, isPermitted c = true) ∧
      Scalar.binary (String.ofList ((line :: lines).flatMap (· ++ ['\n']))) = .ok content ∧
      ∀ p : Page, (p.scalar (indent + 1) false (bytesScalar content)).Closes (p.chars ++
        ((if p.afterSpace then [] else [' ']) ++ Lexer.taggedBlock (indent + 1) line lines)) := by
  obtain ⟨line, lines, htext, hvisible, hread⟩ := exists_lines_binaryText h
  have hfeed : ∀ l ∈ line :: lines, l ≠ [] ∧ '\n' ∉ l := fun l hl =>
    ⟨(hvisible l hl).1, fun hmem => absurd ((hvisible l hl).2 '\n' hmem) (by decide)⟩
  rw [← String.ofList_toList (s := binaryText content), htext] at hread
  refine ⟨line, lines, fun l hl => isBlockLine_of_visible (hvisible l hl).1 (hvisible l hl).2,
    fun l hl c hc => isPermitted_of_printable (printable_of_isVisible
      (isVisible_iff.mpr ((hvisible l hl).2 c hc))), hread, fun p => ?_⟩
  have hscalar : p.scalar (indent + 1) false (bytesScalar content) =
      (p.tag "binary").block (indent + 1) (binaryText content).toList := by
    rw [Page.scalar, style_bytes h]
    rfl
  obtain ⟨hstarts, hchars⟩ := Page.blockBody_lines (Nat.succ_pos indent) hfeed
    (p := ((p.tag "binary").sign ['|'] true false false).breakLine) ⟨rfl, rfl, rfl⟩
  rw [← htext] at hstarts hchars
  have htag : (p.tag "binary").chars =
      p.chars ++ ((if p.afterSpace then [] else [' ']) ++ binaryWord) := by
    rw [Page.tag, Page.chars_sign, Bool.not_true, Bool.or_false]
    cases p.afterSpace <;> rfl
  have hsign : ((p.tag "binary").sign ['|'] true false false).chars =
      (p.tag "binary").chars ++ [' ', '|'] := Page.chars_sign _ _ _ _ _
  rw [hscalar]
  refine .inr ⟨hstarts, hchars.trans ?_⟩
  rw [flatMap_lines, Page.chars_breakLine, hsign, htag]
  simp only [Lexer.taggedBlock, List.append_assoc, List.cons_append, List.nil_append]

theorem writesScalar_lines {content : List UInt8} (h : content ≠ []) (n : Nat) :
    WritesScalar n (bytesScalar content) (.bytes content) := by
  intro p hp
  obtain ⟨line, lines, hlines, hpermitted, hread, hcloses⟩ := exists_lines h (n + 1)
  have hcloses := hcloses p
  rw [hp] at hcloses
  refine ⟨' ' :: Lexer.taggedBlock (n + 2) line lines, hcloses, rfl,
    List.forall_mem_cons.mpr ⟨rfl, Lexer.permitted_taggedBlock hpermitted⟩, _, ?_,
    Parser.yieldsKey_binary hread⟩
  intro compact m indents before column d tail hindents hcolumn _ hd htail hm
  have hle : ∀ i ∈ indents.head?, i ≤ m.cursor.column + 1 := by
    rw [hindents, hm.column]
    rintro i ⟨⟩
    omega
  have hrest : m.cursor.rest = List.replicate 1 ' ' ++
      (Lexer.taggedBlock (n + 2) line lines ++ '\n' :: (List.replicate d ' ' ++ tail)) := hm.rest
  have harrives := hm.toOutside.arrives_spaces (fun _ => hm.pending) hrest
    (Lexer.startsToken_taggedBlock (n + 2) line lines _) hle
  rw [hm.column, hm.keyAllowed] at harrives
  obtain ⟨k, hreach, hk⟩ := harrives.exists_taggedBlock hlines (Nat.succ_pos _)
    (by rw [hindents]; rintro i ⟨⟩; omega)
    (fun _ => by rw [hindents, ne_eq, Option.some.injEq]; omega) (by omega) htail
  have hlong := Lexer.length_taggedBlock (n + 2) line lines
  exact ⟨k, hreach.mono (by rw [List.length_cons]; omega), hk⟩

/-- No bytes are written as an empty text behind their tag. -/
theorem writesScalar_noBytes (n : Nat) : WritesScalar n (bytesScalar []) (.bytes []) := by
  intro p hp
  have hstyle : (bytesScalar []).style false = .double := by decide
  have hscalar : p.scalar (n + 2) false (bytesScalar []) =
      (p.tag "binary").double (n + 2) true [] := by
    rw [Page.scalar, hstyle]
    rfl
  have hchars : ((p.tag "binary").double (n + 2) true []).chars =
      (p.tag "binary").chars ++ [' ', '"', '"'] :=
    @chars_double _ _ _ [] _ (Page.chars_write [] _)
  have htag : (p.tag "binary").chars = p.chars ++ ' ' :: binaryWord := by
    rw [Page.tag, Page.chars_sign, hp]
    rfl
  have hquoted : ReadsQuoted true ['"', '"'] (binaryText []) := opens_nil.spells.readsQuoted
  refine ⟨' ' :: (binaryWord ++ [' ', '"', '"']), .inl ⟨?_, ?_⟩, rfl, ?_, _,
    (hquoted.lexesScalar n).taggedNode hquoted.startsToken hquoted.nonempty,
    Parser.yieldsKey_binary rfl⟩
  · rw [hscalar]
    exact Bool.and_false _
  · rw [hscalar, hchars, htag, List.append_assoc]
    rfl
  · exact List.forall_mem_cons.mpr ⟨rfl, List.forall_mem_append.mpr ⟨by decide, by decide⟩⟩

/-- Bytes are read back. -/
theorem writesScalar_bytes (content : List UInt8) (n : Nat) :
    WritesScalar n (bytesScalar content) (.bytes content) := by
  by_cases h : content = []
  · exact h ▸ writesScalar_noBytes n
  · exact writesScalar_lines h n

/-- Bytes are no key without a question mark. -/
theorem isSimpleKey_bytes (content : List UInt8) : (bytesScalar content).isSimpleKey = false := by
  by_cases h : content = []
  · rw [h]
    decide
  · obtain ⟨line, lines, htext, -, -⟩ := exists_lines_binaryText h
    have hfeed : '\n' ∈ (binaryText content).toList := by
      rw [htext, List.flatMap_cons]
      exact List.mem_append_left _ (List.mem_append_right _ List.mem_cons_self)
    have hmulti : isMultiline (binaryText content).toList = true :=
      List.any_eq_true.mpr ⟨'\n', hfeed, rfl⟩
    show (!_ && !isMultiline (binaryText content).toList && _) = false
    rw [hmulti, Bool.not_true, Bool.and_false, Bool.false_and]

theorem writesEntryKey_bytes (content : List UInt8) (n : Nat) :
    WritesEntryKey n (.bytes content) := by
  refine ⟨bytesScalar content, rfl, ?_⟩
  rw [isSimpleKey_bytes, if_neg Bool.false_ne_true]
  exact writesScalar_bytes content n

end Writer

end DocSchema.Yaml
