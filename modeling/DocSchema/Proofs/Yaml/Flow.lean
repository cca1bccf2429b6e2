import DocSchema.Proofs.Yaml.Steps

/-!
# Tokens between brackets

Between brackets the indentation does not count, so the lexer cuts a text into tokens wherever the
text stands. This module says so for signs and for entries in brackets; what scalars and keys are
is left to the modules about them.

## Main definitions

* `Lexer.Loose`: no block node is open, and no key is demanded
* `Lexes`: a text is cut into tokens, wherever it stands between brackets

## Main results

* `Lexer.Loose.exists_step`: what a step does behind a gap
* `LexesEntries.comma`: entries with a comma in front of others
* `cuts_list`, `cuts_map`: brackets around what is cut into tokens
-/

namespace DocSchema.Yaml

namespace Lexer

variable {l : Lexer}

/-- No block node is open, and nothing that is pending has to be a key. -/
structure Loose (l : Lexer) : Prop extends Numbered l where
  indents : l.indents = []
  notDone : l.done = false
  optional : ∀ key ∈ l.pending, key.2.required = false

theorem Loose.sign (h : l.Loose) (t : Token) : (l.sign t).Loose where
  slot_lt := (h.toNumbered.push t).slot_lt
  key_lt := h.key_lt
  indents := h.indents
  notDone := h.notDone
  optional := h.optional

theorem emitted_sign (l : Lexer) (t : Token) : (l.sign t).emitted = l.emitted ++ [t] :=
  emitted_push { l with cursor := l.cursor.next } t

/-- A loose lexer gives up pending keys without complaint. -/
theorem Loose.dropPending (h : l.Loose) :
    l.dropPending =
      .ok { l with pending := l.pending.filter fun (depth, _) => depth != l.depth } :=
  dropPending_eq h.optional

theorem Loose.dropStale (h : l.Loose) :
    l.dropStale =
      .ok { l with pending := l.pending.filter fun (_, key) => !isStale l.cursor key } :=
  dropStale_eq h.optional

theorem Loose.closeBlocks (h : l.Loose) (isInner : Nat → Bool) : l.closeBlocks isInner = l := by
  obtain ⟨cursor, read, keys, slots, indents, depth, keyAllowed, pending, done⟩ := l
  obtain rfl : indents = [] := h.indents
  rw [Lexer.closeBlocks]
  split <;> rfl

/-- Of the pending keys any may be given up. -/
theorem Loose.filter_pending (h : l.Loose) (kept : Nat × PendingKey → Bool) :
    { l with pending := l.pending.filter kept }.Loose where
  toNumbered := ⟨h.slot_lt, h.key_lt⟩
  indents := h.indents
  notDone := h.notDone
  optional key hkey := h.optional key (List.mem_of_mem_filter hkey)

/-- A lexer that has come to the next token, with the pending keys that are still in reach. -/
def settled (l : Lexer) (c : Cursor) (allowed : Bool) : Lexer :=
  { l with
    cursor := c
    keyAllowed := allowed
    pending := l.pending.filter fun (_, key) => !isStale c key }

theorem Loose.settled (h : l.Loose) (c : Cursor) (allowed : Bool) : (l.settled c allowed).Loose where
  toNumbered := ⟨h.slot_lt, h.key_lt⟩
  indents := h.indents
  notDone := h.notDone
  optional key hkey := h.optional key (List.mem_of_mem_filter hkey)

/-- A step skips a gap and looks at what is behind it. -/
theorem Loose.exists_settled (h : l.Loose) {gap tail : List Char} (hgap : IsGap gap)
    (htail : StartsToken tail) (hrest : l.cursor.rest = gap ++ tail) :
    ∃ c allowed, c.rest = tail ∧ (l.inFlow = true → allowed = l.keyAllowed) ∧
      (IsLine gap → c = l.cursor.skip gap.length) ∧
      l.step =
        match tail.head? with
        | none => (l.settled c allowed).finish
        | some ch => (l.settled c allowed).tokenAt ch := by
  have hfuel : gap.length < l.cursor.rest.length + 1 := by
    rw [hrest, List.length_append]
    omega
  obtain ⟨c, allowed, hskip, hc, hflow, hline⟩ := exists_skipToToken hgap htail hrest hfuel
  have hloose : { l with cursor := c, keyAllowed := allowed }.Loose :=
    ⟨⟨h.slot_lt, h.key_lt⟩, h.indents, h.notDone, h.optional⟩
  have hdrop : { l with cursor := c, keyAllowed := allowed }.dropStale =
      .ok (l.settled c allowed) := hloose.dropStale
  refine ⟨c, allowed, hc, hflow, hline, ?_⟩
  rw [step, hskip, hdrop, ← hc]
  show (match Cursor.peek (Lexer.closeBlocks _ _).cursor with
    | none => _
    | some ch => _) = _
  rw [(h.settled c allowed).closeBlocks]
  rfl

/-- A step behind a gap reads the token that starts there. -/
theorem Loose.exists_step (h : l.Loose) {gap tail : List Char} {ch : Char} (hgap : IsGap gap)
    (hstart : StartsToken (ch :: tail)) (hrest : l.cursor.rest = gap ++ ch :: tail) :
    ∃ c allowed, c.rest = ch :: tail ∧ (l.inFlow = true → allowed = l.keyAllowed) ∧
      (IsLine gap → c = l.cursor.skip gap.length) ∧
      l.step = (l.settled c allowed).tokenAt ch :=
  h.exists_settled hgap hstart hrest

/-- Behind the last gap a step ends the run. -/
theorem Loose.exists_finish (h : l.Loose) (hgap : IsGap l.cursor.rest) :
    ∃ m, l.step = .ok m ∧ m.done = true ∧ m.emitted = l.emitted := by
  obtain ⟨c, allowed, -, -, -, hstep⟩ :=
    h.exists_settled hgap startsToken_nil (List.append_nil _).symm
  have hsettled := h.settled c allowed
  refine ⟨{ l.settled c allowed with keyAllowed := false, pending := [], done := true }, ?_, rfl, rfl⟩
  rw [hstep, List.head?_nil]
  dsimp only
  rw [finish, hsettled.closeBlocks, hsettled.dropPending]
  rfl

/-! ## Slots -/

theorem Loose.leaveSlot_of_allowed (h : l.Loose) (hallowed : l.keyAllowed = true) :
    l.leaveSlot = .ok l.withSlot :=
  leaveSlot_eq h.optional hallowed

theorem Loose.withSlot (h : l.Loose) : l.withSlot.Loose where
  toNumbered := h.toNumbered.withSlot
  indents := h.indents
  notDone := h.notDone
  optional key hkey := by
    obtain rfl | hkey := List.mem_cons.mp hkey
    · show (!l.inFlow && l.indents.head? == some l.cursor.column) = false
      rw [h.indents, List.head?_nil]
      exact Bool.and_false _
    · exact h.optional key (List.mem_of_mem_filter hkey)

/-- Whether a slot is left or not, nothing is emitted. -/
theorem Loose.exists_leaveSlot (h : l.Loose) :
    ∃ m, l.leaveSlot = .ok m ∧ m.Loose ∧ m.emitted = l.emitted ∧ m.cursor = l.cursor ∧
      m.depth = l.depth := by
  cases hallowed : l.keyAllowed with
  | true =>
    exact ⟨l.withSlot, h.leaveSlot_of_allowed hallowed, h.withSlot,
      h.toNumbered.emitted_withSlot, rfl, rfl⟩
  | false => exact ⟨l, leaveSlot_of_not_allowed hallowed, h, rfl, rfl, rfl⟩

/-! ## Signs -/

/-- A step behind a gap, as far as it does not matter what is pending. -/
theorem Loose.exists_token (h : l.Loose) {gap tail : List Char} {ch : Char} (hgap : IsGap gap)
    (hstart : StartsToken (ch :: tail)) (hrest : l.cursor.rest = gap ++ ch :: tail) :
    ∃ m : Lexer, l.step = m.tokenAt ch ∧ m.Loose ∧ m.cursor.rest = ch :: tail ∧
      m.depth = l.depth ∧ m.emitted = l.emitted ∧ (l.inFlow = true → m.keyAllowed = l.keyAllowed) := by
  obtain ⟨c, allowed, hc, hflow, -, hstep⟩ := h.exists_step hgap hstart hrest
  exact ⟨_, hstep, h.settled c allowed, hc, rfl, rfl, hflow⟩

theorem Loose.exists_comma (h : l.Loose) :
    ∃ m, l.comma = .ok m ∧ m.Loose ∧ m.cursor = l.cursor.next ∧ m.depth = l.depth ∧
      m.emitted = l.emitted ++ [.comma] ∧ m.keyAllowed = true := by
  have hkept := h.filter_pending fun (depth, _) => depth != l.depth
  refine ⟨_, ?_, Loose.sign (l := { l with
    pending := l.pending.filter fun (depth, _) => depth != l.depth
    keyAllowed := true }) ⟨⟨hkept.slot_lt, hkept.key_lt⟩, hkept.indents, hkept.notDone,
      hkept.optional⟩ .comma, rfl, rfl, emitted_sign _ _, rfl⟩
  rw [comma, h.dropPending]
  rfl

theorem Loose.exists_openFlow (h : l.Loose) (t : Token) :
    ∃ m, l.openFlow t = .ok m ∧ m.Loose ∧ m.cursor = l.cursor.next ∧ m.depth = l.depth + 1 ∧
      m.emitted = l.emitted ++ [t] ∧ m.keyAllowed = true := by
  obtain ⟨m, hslot, hm, hemitted, hcursor, hdepth⟩ := h.exists_leaveSlot
  refine ⟨_, ?_, Loose.sign (l := { m with depth := m.depth + 1, keyAllowed := true })
    ⟨⟨hm.slot_lt, hm.key_lt⟩, hm.indents, hm.notDone, hm.optional⟩ t, ?_, ?_, ?_, rfl⟩
  · rw [openFlow, hslot]
    rfl
  · exact congrArg Cursor.next hcursor
  · exact congrArg (· + 1) hdepth
  · exact (emitted_sign _ _).trans (congrArg (· ++ [t]) hemitted)

theorem Loose.exists_closeFlow (h : l.Loose) (t : Token) :
    ∃ m, l.closeFlow t = .ok m ∧ m.Loose ∧ m.cursor = l.cursor.next ∧ m.depth = l.depth - 1 ∧
      m.emitted = l.emitted ++ [t] := by
  have hkept := h.filter_pending fun (depth, _) => depth != l.depth
  refine ⟨_, ?_, Loose.sign (l := { l with
    pending := l.pending.filter fun (depth, _) => depth != l.depth
    depth := l.depth - 1
    keyAllowed := false }) ⟨⟨hkept.slot_lt, hkept.key_lt⟩, hkept.indents, hkept.notDone,
      hkept.optional⟩ t, rfl, rfl, emitted_sign _ _⟩
  rw [closeFlow, h.dropPending]
  rfl

end Lexer

/-! ## Entries between brackets -/

/-- What follows ends every scalar between brackets: a mark or the end of the text. -/
def ClosesScalar (cs : List Char) : Prop := ∀ c ∈ cs.head?, isFlowIndicator c = true

theorem startsToken_of_isFlowIndicator {ch : Char} {tail : List Char}
    (h : isFlowIndicator ch = true) : StartsToken (ch :: tail) := by
  intro c hc
  obtain rfl : ch = c := Option.some.inj hc
  simp only [isFlowIndicator, Bool.or_eq_true, beq_iff_eq] at h
  obtain (((rfl | rfl) | rfl) | rfl) | rfl := h <;> decide

theorem ClosesScalar.startsToken {cs : List Char} (h : ClosesScalar cs) : StartsToken cs := by
  cases cs with
  | nil => exact startsToken_nil
  | cons c cs => exact startsToken_of_isFlowIndicator (h c rfl)

/-- From a lexer on, a text between gaps is cut into tokens. The gap behind it may be skipped. -/
def Lexer.Cuts (l : Lexer) (cs : List Char) (ts : List Token) : Prop :=
  ∀ before after tail : List Char, IsGap before → IsGap after → ClosesScalar tail →
    l.cursor.rest = before ++ (cs ++ (after ++ tail)) →
    ∃ m gap, Lexer.Reaches cs.length l m ∧ m.Loose ∧ m.depth = l.depth ∧
      m.emitted = l.emitted ++ ts ∧ IsGap gap ∧ m.cursor.rest = gap ++ tail

/-- A text is cut into tokens, wherever it stands between brackets. -/
def Lexes (cs : List Char) (ts : List Token) : Prop :=
  ∀ l : Lexer, l.Loose → l.depth ≠ 0 → l.Cuts cs ts

/-- Entries between brackets, of which the first one may be a key, are cut into tokens. -/
def LexesEntries (cs : List Char) (ts : List Token) : Prop :=
  ∀ (l : Lexer) (tail : List Char), l.Loose → l.depth ≠ 0 → l.keyAllowed = true →
    ClosesScalar tail → l.cursor.rest = cs ++ tail →
    ∃ m gap, Lexer.Reaches cs.length l m ∧ m.Loose ∧ m.depth = l.depth ∧
      m.emitted = l.emitted ++ ts ∧ IsGap gap ∧ m.cursor.rest = gap ++ tail

theorem lexesEntries_gap {gap : List Char} (h : IsGap gap) : LexesEntries gap [] := by
  intro l tail hl _ _ _ hrest
  exact ⟨l, gap, .refl _ _, hl, rfl, (List.append_nil _).symm, h, hrest⟩

theorem Lexes.entries {before cs after : List Char} {ts : List Token} (h : Lexes cs ts)
    (hbefore : IsGap before) (hafter : IsGap after) :
    LexesEntries (before ++ cs ++ after) ts := by
  intro l tail hl hdepth _ htail hrest
  rw [List.append_assoc, List.append_assoc] at hrest
  obtain ⟨m, gap, hreaches, hm⟩ := h l hl hdepth before after tail hbefore hafter htail hrest
  refine ⟨m, gap, hreaches.mono ?_, hm⟩
  rw [List.length_append, List.length_append]
  omega

/-- A comma between entries. -/
theorem LexesEntries.comma {cs rest : List Char} {ts more : List Token} (h : LexesEntries cs ts)
    (hrest : LexesEntries rest more) : LexesEntries (cs ++ ',' :: rest) (ts ++ .comma :: more) := by
  intro l tail hl hdepth hallowed htail hcursor
  rw [List.append_assoc, List.cons_append] at hcursor
  have hmark : ClosesScalar (',' :: (rest ++ tail)) := by
    intro c hc
    obtain rfl : ',' = c := Option.some.inj hc
    rfl
  obtain ⟨m₁, gap₁, hreach₁, hm₁, hdepth₁, hemitted₁, hgap₁, hcursor₁⟩ :=
    h l _ hl hdepth hallowed hmark hcursor
  obtain ⟨m₂, hstep, hm₂, hcursor₂, hdepth₂, hemitted₂, -⟩ :=
    hm₁.exists_token hgap₁ hmark.startsToken hcursor₁
  obtain ⟨m₃, hcomma, hm₃, hcursor₃, hdepth₃, hemitted₃, hallowed₃⟩ := hm₂.exists_comma
  have hbehind : m₃.cursor.rest = rest ++ tail := by
    rw [hcursor₃, Cursor.rest_next, hcursor₂, List.tail_cons]
  have hsame : m₃.depth = l.depth := hdepth₃.trans (hdepth₂.trans hdepth₁)
  obtain ⟨m₄, gap₄, hreach₄, hm₄, hdepth₄, hemitted₄, hgap₄, hcursor₄⟩ :=
    hrest m₃ tail hm₃ (hsame ▸ hdepth) hallowed₃ htail hbehind
  have hmiddle : Lexer.Reaches 1 m₁ m₃ := .single (hstep.trans hcomma) hm₃.notDone
  refine ⟨m₄, gap₄, (hreach₁.trans (hmiddle.trans hreach₄)).mono ?_, hm₄, hdepth₄.trans hsame, ?_,
    hgap₄, hcursor₄⟩
  · rw [List.length_append, List.length_cons]
    omega
  · rw [hemitted₄, hemitted₃, hemitted₂, hemitted₁]
    simp only [List.append_assoc, List.singleton_append]

/-- Brackets around entries, wherever they stand. -/
theorem cuts_brackets {opening closing : Char} {first last : Token} {cs : List Char}
    {ts : List Token} (hopening : isFlowIndicator opening = true)
    (hclosing : isFlowIndicator closing = true)
    (hopen : ∀ m : Lexer, m.tokenAt opening = m.openFlow first)
    (hclose : ∀ m : Lexer, m.tokenAt closing = m.closeFlow last)
    (h : LexesEntries cs ts) {l : Lexer} (hl : l.Loose) :
    l.Cuts (opening :: (cs ++ [closing])) (first :: (ts ++ [last])) := by
  intro before after tail hbefore hafter htail hcursor
  rw [List.cons_append, List.append_assoc, List.singleton_append] at hcursor
  have hmark : ClosesScalar (closing :: (after ++ tail)) := by
    intro c hc
    obtain rfl : closing = c := Option.some.inj hc
    exact hclosing
  obtain ⟨m₁, hstep₁, hm₁, hcursor₁, hdepth₁, hemitted₁, -⟩ :=
    hl.exists_token hbefore (startsToken_of_isFlowIndicator hopening) hcursor
  obtain ⟨m₂, hopened, hm₂, hcursor₂, hdepth₂, hemitted₂, hallowed₂⟩ := hm₁.exists_openFlow first
  have hinside : m₂.cursor.rest = cs ++ closing :: (after ++ tail) := by
    rw [hcursor₂, Cursor.rest_next, hcursor₁, List.tail_cons]
  have hdeep : m₂.depth ≠ 0 := by
    rw [hdepth₂]
    exact Nat.succ_ne_zero _
  obtain ⟨m₃, gap₃, hreach₃, hm₃, hdepth₃, hemitted₃, hgap₃, hcursor₃⟩ :=
    h m₂ _ hm₂ hdeep hallowed₂ hmark hinside
  obtain ⟨m₄, hstep₄, hm₄, hcursor₄, hdepth₄, hemitted₄, -⟩ :=
    hm₃.exists_token hgap₃ hmark.startsToken hcursor₃
  obtain ⟨m₅, hclosed, hm₅, hcursor₅, hdepth₅, hemitted₅⟩ := hm₄.exists_closeFlow last
  have hfirst : Lexer.Reaches 1 l m₂ :=
    .single (hstep₁.trans ((hopen m₁).trans hopened)) hm₂.notDone
  have hlast : Lexer.Reaches 1 m₃ m₅ :=
    .single (hstep₄.trans ((hclose m₄).trans hclosed)) hm₅.notDone
  refine ⟨m₅, after, (hfirst.trans (hreach₃.trans hlast)).mono ?_, hm₅, ?_, ?_, hafter, ?_⟩
  · rw [List.length_cons, List.length_append, List.length_singleton]
    omega
  · rw [hdepth₅, hdepth₄, hdepth₃, hdepth₂, hdepth₁, Nat.add_sub_cancel]
  · rw [hemitted₅, hemitted₄, hemitted₃, hemitted₂, hemitted₁]
    simp only [List.append_assoc, List.cons_append, List.nil_append]
  · rw [hcursor₅, Cursor.rest_next, hcursor₄, List.tail_cons]

theorem cuts_list {cs : List Char} {ts : List Token} (h : LexesEntries cs ts) {l : Lexer}
    (hl : l.Loose) : l.Cuts ('[' :: (cs ++ [']'])) (.flowListStart :: (ts ++ [.flowListEnd])) :=
  cuts_brackets rfl rfl (fun _ => rfl) (fun _ => rfl) h hl

theorem cuts_map {cs : List Char} {ts : List Token} (h : LexesEntries cs ts) {l : Lexer}
    (hl : l.Loose) : l.Cuts ('\x7b' :: (cs ++ ['\x7d'])) (.flowMapStart :: (ts ++ [.flowMapEnd])) :=
  cuts_brackets rfl rfl (fun _ => rfl) (fun _ => rfl) h hl

end DocSchema.Yaml
