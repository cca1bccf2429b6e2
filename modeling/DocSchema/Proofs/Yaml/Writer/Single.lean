import DocSchema.Proofs.Text.Span
import DocSchema.Proofs.Yaml.QuotedScalars
import DocSchema.Proofs.Yaml.Writer.Blocks

/-!
# Writing between single quotes

A text between single quotes is written in pieces: runs of line feeds, runs of spaces, and other
characters one by one.

## Main definitions

* `IsSingleText`: what can be written between single quotes
* `Page.WritesSingle`: what is left of a text is written

## Main results

* `Page.writesSingle`: what is written of a text spells it
* `Writer.writesScalar_single`, `Writer.writesKey_single`
-/

namespace DocSchema.Yaml

-- Decisions about the members of a list go through the list and not through all characters.
attribute [local instance (2000)] List.decidableBAll

theorem hasNeighbours_append {related : Char → Char → Bool} {before after : List Char} {a b : Char}
    (h : hasNeighbours related (before ++ a :: b :: after) = false) : related a b = false := by
  induction before with
  | nil =>
    rw [List.nil_append, hasNeighbours] at h
    exact (Bool.or_eq_false_iff.mp h).1
  | cons c before ih =>
    refine ih ?_
    match before with
    | [] =>
      rw [List.cons_append, List.nil_append, hasNeighbours] at h
      exact (Bool.or_eq_false_iff.mp h).2
    | d :: before =>
      rw [List.cons_append, List.cons_append, hasNeighbours] at h
      exact (Bool.or_eq_false_iff.mp h).2

/-- Line feeds and printable characters, with no space next to a line feed. -/
structure IsSingleText (cs : List Char) : Prop where
  characters : ∀ c ∈ cs, c = '\n' ∨ 32 ≤ c.toNat ∧ c.toNat ≤ 126
  apart : ∀ before a b after, cs = before ++ a :: b :: after →
    (a = ' ' → b ≠ '\n') ∧ (a = '\n' → b ≠ ' ')

theorem isSingleText_of_canBeSingle {cs : List Char} (h : canBeSingle cs = true) :
    IsSingleText cs := by
  simp only [canBeSingle, Bool.and_eq_true, Bool.not_eq_true'] at h
  obtain ⟨hescape, hneighbours⟩ := h
  rw [List.any_eq_false] at hescape
  refine ⟨fun c hc => ?_, ?_⟩
  · have hplain := hescape c hc
    rwa [needsEscape, Bool.not_eq_true', Bool.not_eq_false, Bool.or_eq_true, Bool.and_eq_true,
      decide_eq_true_eq, decide_eq_true_eq, beq_iff_eq] at hplain
  · rintro before a b after rfl
    have hapart := hasNeighbours_append hneighbours
    constructor
    · rintro rfl rfl
      cases hapart
    · rintro rfl rfl
      cases hapart

theorem IsSingleText.behind {before rest : List Char} (h : IsSingleText (before ++ rest)) :
    IsSingleText rest where
  characters c hc := h.characters c (List.mem_append_right _ hc)
  apart first a b after hfirst := h.apart (before ++ first) a b after (by rw [hfirst, List.append_assoc])

theorem IsSingleText.isVisible {cs : List Char} {c : Char} (h : IsSingleText cs) (hc : c ∈ cs)
    (hblank : c ≠ ' ') (hfeed : c ≠ '\n') : isVisible c = true := by
  obtain rfl | hrange := h.characters c hc
  · exact absurd rfl hfeed
  · have hcode : c.toNat ≠ 32 := fun hcode => hblank (Char.toNat_inj.mp hcode)
    exact isVisible_iff.mpr ⟨by omega, hrange.2⟩

/-- Behind a run of spaces or of line feeds something else starts. -/
theorem IsSingleText.isSpacing_head {k : Nat} {d : Char} {rest : List Char} (hd : d = ' ' ∨ d = '\n')
    (h : IsSingleText (List.replicate (k + 1) d ++ rest)) (hrest : ∀ c ∈ rest.head?, c ≠ d) :
    ∀ c ∈ rest.head?, isSpacing c = false := by
  intro c hc
  obtain ⟨rest, rfl⟩ := List.head?_eq_some_iff.mp hc
  have hne := hrest c rfl
  obtain ⟨hblank, hfeed⟩ := h.apart (List.replicate k d) d c rest
    (by rw [List.replicate_succ', List.append_assoc, List.singleton_append])
  have hboth : c ≠ ' ' ∧ c ≠ '\n' := by
    obtain rfl | rfl := hd
    · exact ⟨hne, hblank rfl⟩
    · exact ⟨hfeed rfl, hne⟩
  exact isSpacing_of_isVisible
    (h.isVisible (List.mem_append_right _ List.mem_cons_self) hboth.1 hboth.2)

/-- On one line a text is spelled with printable characters, two of them for a quote. -/
theorem SpellsSingle.onLine {indent : Nat} {cs read : List Char} (h : SpellsSingle indent cs read)
    (hline : '\n' ∉ cs) :
    (∀ c ∈ cs, 32 ≤ c.toNat ∧ c.toNat ≤ 126) ∧ cs.length ≤ 2 * read.length := by
  induction h with
  | nil => exact ⟨nofun, Nat.zero_le _⟩
  | char hc _ _ ih =>
    obtain ⟨hall, hlength⟩ := ih fun hmem => hline (List.mem_cons_of_mem _ hmem)
    refine ⟨List.forall_mem_cons.mpr ⟨printable_of_isVisible hc, hall⟩, ?_⟩
    rw [List.length_cons, List.length_cons]
    omega
  | quote _ ih =>
    obtain ⟨hall, hlength⟩ := ih fun hmem =>
      hline (List.mem_cons_of_mem _ (List.mem_cons_of_mem _ hmem))
    refine ⟨List.forall_mem_cons.mpr ⟨by decide, List.forall_mem_cons.mpr ⟨by decide, hall⟩⟩, ?_⟩
    rw [List.length_cons, List.length_cons, List.length_cons]
    omega
  | spaces _ _ ih =>
    obtain ⟨hall, hlength⟩ := ih fun hmem => hline (List.mem_append_right _ hmem)
    refine ⟨List.forall_mem_append.mpr ⟨fun c hc => ?_, hall⟩, ?_⟩
    · rw [List.eq_of_mem_replicate hc]
      decide
    · rw [List.length_append, List.length_append, List.length_replicate]
      omega
  | lines => exact absurd List.mem_cons_self hline

namespace Page

variable {p : Page} {indent : Nat}

theorem foldl_breakLine (k : Nat) (p : Page) :
    ((List.replicate k '\n').foldl (fun p _ => p.breakLine) p.breakLine).StartsLine 0 ∧
      ((List.replicate k '\n').foldl (fun p _ => p.breakLine) p.breakLine).chars =
        p.chars ++ '\n' :: List.replicate k '\n' := by
  induction k generalizing p with
  | zero => exact ⟨⟨rfl, rfl, rfl⟩, chars_breakLine p⟩
  | succ k ih =>
    rw [List.replicate_succ, List.foldl_cons]
    obtain ⟨hstarts, hchars⟩ := ih p.breakLine
    refine ⟨hstarts, ?_⟩
    rw [hchars, chars_breakLine, List.append_assoc, List.singleton_append]

theorem StartsLine.indentTo_of_zero (h : p.StartsLine 0) (hindent : 0 < indent) :
    (p.indentTo indent).StartsLine indent ∧
      (p.indentTo indent).chars = p.chars ++ List.replicate indent ' ' := by
  have hline := startsLine_indentTo_of_lt h.atIndent (by rwa [h.column])
  rwa [h.column, Nat.sub_zero] at hline

/-- A space in front of what is left goes behind the indentation of the line, so that the line can
end in its place. -/
def MayEnd (p : Page) (indent : Nat) (cs : List Char) : Prop :=
  p.atIndent = false ∨ indent < p.column ∨ p.column = indent ∧ cs.head? ≠ some ' '

theorem MayEnd.write {cs written : List Char} (h : p.MayEnd indent cs) (hne : written ≠ [])
    (more : List Char) : (p.write written).MayEnd indent more := by
  have hpos := List.length_pos_of_ne_nil hne
  obtain hindent | hlt | ⟨heq, -⟩ := h
  · exact .inl hindent
  · exact .inr (.inl (by rw [column_write]; omega))
  · exact .inr (.inl (by rw [column_write]; omega))

theorem MayEnd.of_startsLine {cs : List Char} (h : p.StartsLine indent)
    (hhead : ∀ c ∈ cs.head?, isSpacing c = false) : p.MayEnd indent cs := by
  refine .inr (.inr ⟨h.column, fun hspace => ?_⟩)
  cases hhead ' ' hspace

/-- A single space may be written as the end of a line, and other spaces as they are. -/
theorem exists_blank (split isFirst : Bool) {k : Nat} {back : List Char}
    (hp : p.MayEnd indent (List.replicate (k + 1) ' ' ++ back))
    (hback : ∀ c ∈ back.head?, isSpacing c = false) :
    ∃ (gap : List Char) (q : Page),
      (if (k + 1 == 1 && width < p.column && split && !isFirst && !back.isEmpty) = true then
        p.indentTo indent else p.write (List.replicate (k + 1) ' ')) = q ∧
      q.chars = p.chars ++ gap ∧ q.MayEnd indent back ∧
      (∀ out, SpellsSingle indent out back →
        SpellsSingle indent (gap ++ out) (List.replicate (k + 1) ' ' ++ back)) ∧
      (split = false → '\n' ∉ gap) := by
  split_ifs with hfold
  · simp only [Bool.and_eq_true, beq_iff_eq, decide_eq_true_eq] at hfold
    obtain ⟨⟨⟨⟨hone, -⟩, rfl⟩, -⟩, -⟩ := hfold
    obtain rfl : k = 0 := by omega
    have hends : p.atIndent = false ∨ indent < p.column :=
      hp.imp_right fun hright => hright.resolve_right fun hhere => hhere.2 rfl
    obtain ⟨hline, hchars⟩ := startsLine_indentTo hends
    exact ⟨_, _, rfl, hchars, .of_startsLine hline hback, fun out => .lines (k := 0) hback, nofun⟩
  · refine ⟨_, _, rfl, chars_write _ p, hp.write (List.cons_ne_nil _ _) back,
      fun out => .spaces hback, fun _ hfeed => ?_⟩
    cases List.eq_of_mem_replicate hfeed

/-- What is left of a text is written between single quotes. A key stays on its line. -/
def WritesSingle (indent : Nat) (split : Bool) (cs : List Char) (p after : Page) : Prop :=
  ∃ out, after.chars = p.chars ++ out ∧ SpellsSingle indent out cs ∧
    (split = false → '\n' ∉ cs → '\n' ∉ out)

/-- The piece at the front of a text is written in front of what is left. -/
theorem WritesSingle.cons {split : Bool} {piece front back : List Char} {q after : Page}
    (h : WritesSingle indent split back q after) (hchars : q.chars = p.chars ++ piece)
    (hspells : ∀ out, SpellsSingle indent out back → SpellsSingle indent (piece ++ out) (front ++ back))
    (hline : split = false → '\n' ∉ front → '\n' ∉ piece) :
    WritesSingle indent split (front ++ back) p after := by
  obtain ⟨out, hout, hback, hkey⟩ := h
  refine ⟨piece ++ out, ?_, hspells out hback, fun hno hfeed => ?_⟩
  · rw [hout, hchars, List.append_assoc]
  · rw [List.mem_append, not_or] at hfeed ⊢
    exact ⟨hline hno hfeed.1, hkey hno hfeed.2⟩

/-- What is written of a text between single quotes spells it. -/
theorem writesSingle (hindent : 0 < indent) (split isFirst : Bool) {cs : List Char}
    (h : IsSingleText cs) (fuel : Nat) (hfuel : cs.length < fuel) (p : Page)
    (hp : p.MayEnd indent cs) :
    WritesSingle indent split cs p (singleBody indent split isFirst fuel cs p) := by
  induction hn : cs.length using Nat.strongRecOn generalizing cs fuel isFirst p with
  | ind length ih =>
    subst hn
    obtain ⟨fuel, rfl⟩ := Nat.exists_eq_add_of_le' (Nat.one_le_of_lt hfuel)
    rw [singleBody.eq_def]
    dsimp only
    split
    · exact ⟨[], (List.append_nil _).symm, .nil, fun _ => id⟩
    · next rest =>
      obtain ⟨k, back, rfl, hback⟩ := Text.exists_run '\n' rest
      rw [← List.cons_append, ← List.replicate_succ] at h hfuel ih ⊢
      obtain ⟨htake, hdrop⟩ := Text.takeWhile_run (k + 1) hback
      obtain ⟨hstarts, hchars⟩ := foldl_breakLine (k + 1) p
      rw [List.length_append, List.length_replicate] at hfuel ih
      obtain ⟨hline, hlineChars⟩ := hstarts.indentTo_of_zero hindent
      have hspacing := h.isSpacing_head (.inr rfl) hback
      rw [htake, hdrop]
      have hrest := ih back.length (by omega) false h.behind fuel (by omega) _
        (.of_startsLine hline hspacing) rfl
      refine hrest.cons (by rw [hlineChars, hchars, List.append_assoc]) (fun out hout => ?_)
        fun _ hfeed => absurd List.mem_cons_self hfeed
      have hlines := SpellsSingle.lines (k := k + 1) hspacing hout
      rwa [List.append_assoc]
    · next rest =>
      obtain ⟨k, back, rfl, hback⟩ := Text.exists_run ' ' rest
      rw [← List.cons_append, ← List.replicate_succ] at h hfuel ih ⊢
      obtain ⟨htake, hdrop⟩ := Text.takeWhile_run (k + 1) hback
      rw [List.length_append, List.length_replicate] at hfuel ih
      have hspacing := h.isSpacing_head (.inl rfl) hback
      obtain ⟨gap, q, hgap, hchars, hends, hwrites, hline⟩ := exists_blank split isFirst hp hspacing
      rw [htake, hdrop, List.length_replicate, hgap]
      have hrest := ih back.length (by omega) false h.behind fuel (by omega) q hends rfl
      exact hrest.cons hchars hwrites fun hno _ => hline hno
    · next rest =>
      rw [List.length_cons] at hfuel ih
      have hrest := ih rest.length (by omega) false (@IsSingleText.behind ['\''] rest h) fuel
        (by omega) (p.write ['\'', '\'']) (hp.write (List.cons_ne_nil _ _) rest) rfl
      show WritesSingle indent split (['\''] ++ rest) p _
      exact hrest.cons (chars_write _ p) (fun _ hout => .quote hout) fun _ _ => by decide
    · next c rest hfeed hblank hquote =>
      rw [List.length_cons] at hfuel ih
      have hvisible := h.isVisible List.mem_cons_self hblank hfeed
      have hrest := ih rest.length (by omega) false (@IsSingleText.behind [c] rest h) fuel
        (by omega) (p.write [c]) (hp.write (List.cons_ne_nil _ _) rest) rfl
      show WritesSingle indent split ([c] ++ rest) p _
      exact hrest.cons (chars_write _ p) (fun _ hout => .char hvisible hquote hout) fun _ => id

end Page

/-! ## Scalars -/

namespace Writer

variable {w : WrittenScalar}

theorem style_eq_single {isKey : Bool} (h : w.style isKey = .single) :
    canBeSingle w.text.toList = true ∧ (isKey = true → isMultiline w.text.toList = false) := by
  rw [WrittenScalar.style] at h
  split_ifs at h with _ _ hsingle
  simp only [Bool.and_eq_true, Bool.not_eq_true', Bool.and_eq_false_iff] at hsingle
  refine ⟨hsingle.1.2, ?_⟩
  rintro rfl
  exact hsingle.2.resolve_left nofun

/-- A text needs no tag in front of its quotes. -/
theorem scalar_single {isKey : Bool} (h : w.style isKey = .single) (htext : w.isText = true)
    (indent : Nat) (p : Page) :
    p.scalar indent isKey w = p.single indent (!isKey) w.text.toList := by
  have htag : w.writesTag .single = false := by
    rw [WrittenScalar.writesTag, htext]
    rfl
  rw [Page.scalar, h, htag]
  rfl

/-- What is written of a text with its quotes. -/
theorem exists_single {n : Nat} {isKey : Bool}
    (h : w.style isKey = .single) (htext : w.isText = true) (p : Page) :
    ∃ out, (p.scalar (n + 2) isKey w).chars =
        p.chars ++ ((if p.afterSpace then [] else [' ']) ++ '\'' :: (out ++ ['\''])) ∧
      (p.scalar (n + 2) isKey w).atIndent = false ∧ SpellsSingle (n + 2) out w.text.toList ∧
      (isKey = true → (∀ c ∈ out, 32 ≤ c.toNat ∧ c.toNat ≤ 126) ∧
        out.length ≤ 2 * w.text.toList.length) := by
  obtain ⟨hsingle, hline⟩ := style_eq_single h
  obtain ⟨out, hout, hspells, hkey⟩ := Page.writesSingle (Nat.succ_pos (n + 1)) (!isKey) true
    (isSingleText_of_canBeSingle hsingle) _ (Nat.lt_succ_self _) (p.sign ['\''] true false false)
    (.inl (Bool.and_false _))
  refine ⟨out, ?_, ?_, hspells, ?_⟩
  · rw [scalar_single h htext, Page.single, Page.chars_sign, Bool.not_false, Bool.or_true, if_pos rfl,
      hout, Page.chars_sign, Bool.not_true, Bool.or_false]
    cases p.afterSpace <;> simp
  · rw [scalar_single h htext]
    exact Bool.and_false _
  · rintro rfl
    exact hspells.onLine (hkey rfl (not_mem_of_isMultiline (hline rfl)))

theorem writesScalar_single {n : Nat} (h : w.style false = .single) (htext : w.isText = true) :
    WritesScalar n w (.text w.text) := by
  intro p hp
  obtain ⟨out, hchars, hindent, hspells, -⟩ := exists_single (n := n) h htext p
  rw [hp] at hchars
  have hreads := hspells.readsQuoted (Nat.succ_pos (n + 1))
  rw [String.ofList_toList] at hreads
  have hpermitted : ∀ c ∈ '\'' :: (out ++ ['\'']), isPermitted c = true :=
    List.forall_mem_cons.mpr ⟨rfl, List.forall_mem_append.mpr ⟨hspells.permitted, by decide⟩⟩
  exact ⟨_, .inl ⟨hindent, hchars⟩, hreads.readsScalar hpermitted n⟩

theorem writesKey_single {n : Nat} (h : w.style true = .single) (htext : w.isText = true)
    (hsimple : w.isSimpleKey = true) : WritesKey n w (.text w.text) := by
  intro p hp
  obtain ⟨out, hchars, -, hspells, hkey⟩ := exists_single (n := n) h htext p
  obtain ⟨hall, hlength⟩ := hkey rfl
  rw [hp] at hchars
  have hreads := hspells.readsQuoted (Nat.succ_pos (n + 1))
  rw [String.ofList_toList] at hreads
  have hshort := length_of_isSimpleKey hsimple
  refine ⟨_, hchars, hreads.readsKey ?_ ?_⟩
  · exact List.forall_mem_cons.mpr ⟨by decide, List.forall_mem_append.mpr ⟨hall, by decide⟩⟩
  · rw [List.length_cons, List.length_append, List.length_singleton]
    omega

end Writer

end DocSchema.Yaml
