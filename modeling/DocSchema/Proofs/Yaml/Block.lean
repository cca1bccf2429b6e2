import DocSchema.Proofs.Except
import DocSchema.Proofs.Yaml.Steps

/-!
# Tokens outside of brackets

Outside of brackets the column of a token tells which block nodes end in front of it. This module
says how the lexer comes to a token and what the signs of lists and mappings do there. What is
pending is never demanded when a line ends, since a demanded key has its colon on its line.

## Main definitions

* `Lexer.Outside`: a state outside of brackets
* `Lexer.Arrives`: the next token stands at a column, and what ends in front of it has ended
* `Lexer.closing`: the ends of the block nodes that a column closes
* `Lexer.opened`, `Lexer.opening`: a block node that a column may open
* `Lexer.Waiting`: a token has been read that a colon would make a key

## Main results

* `Lexer.Outside.arrives_spaces`, `Lexer.Outside.arrives_line`: the next token on the line and on
  another one
* `Lexer.Arrives.exists_entry`, `Lexer.Arrives.exists_explicitKey`,
  `Lexer.Arrives.exists_explicitValue`: signs
* `Lexer.Arrives.exists_key`: a key with its colon
* `Lexer.Arrives.exists_finish`: the end of the text
-/

namespace DocSchema.Yaml.Lexer

variable {l m r : Lexer} {indents : List Nat} {ts : List Token} {column : Nat} {allowed : Bool}
  {tail : List Char}

/-! ## Spacing -/

theorem skipToToken_spaces {n fuel : Nat} (h : l.cursor.rest = List.replicate n ' ' ++ tail)
    (htail : StartsToken tail) (hfuel : 0 < fuel) :
    l.skipToToken fuel = { l with cursor := l.cursor.skip n } := by
  obtain ⟨fuel, rfl⟩ := Nat.exists_eq_add_of_le' hfuel
  have hbehind := Cursor.rest_skip_append h
  rw [List.length_replicate] at hbehind
  have hspaces : l.cursor.skipSpaces.skipComment = l.cursor.skip n :=
    Cursor.skipComment_skipSpaces h fun ch hch => ⟨(htail ch hch).1, (htail ch hch).2.1⟩
  have hbreak : (l.cursor.skip n).lineBreak? = none :=
    Cursor.lineBreak?_eq_none fun ch hch => (htail ch (hbehind ▸ hch)).2.2
  rw [skipToToken, hspaces, hbreak]

theorem skipToToken_line {n fuel : Nat} (h : l.cursor.rest = '\n' :: (List.replicate n ' ' ++ tail))
    (htail : StartsToken tail) (hfuel : 1 < fuel) :
    l.skipToToken fuel =
      { l with cursor := l.cursor.skip (n + 1), keyAllowed := l.keyAllowed || !l.inFlow } := by
  obtain ⟨fuel, rfl⟩ := Nat.exists_eq_add_of_le' hfuel
  have hspaces : l.cursor.skipSpaces.skipComment = l.cursor.skip 0 :=
    Cursor.skipComment_skipSpaces (n := 0) h fun ch hch => by
      obtain rfl : '\n' = ch := Option.some.inj hch
      decide
  have hnext : l.cursor.next.rest = List.replicate n ' ' ++ tail := Cursor.rest_next_eq h
  rw [skipToToken, hspaces, Cursor.skip, Cursor.lineBreak?_newline h]
  exact skipToToken_spaces (l := { l with
    cursor := l.cursor.next, keyAllowed := l.keyAllowed || !l.inFlow }) hnext htail
    (Nat.succ_pos fuel)

theorem closeBlocks_eq_self {isInner : Nat → Bool}
    (h : ∀ i ∈ l.indents.head?, isInner i = false) : l.closeBlocks isInner = l := by
  have hnone : l.indents.takeWhile isInner = [] ∧ l.indents.dropWhile isInner = l.indents := by
    cases hindents : l.indents with
    | nil => exact ⟨rfl, rfl⟩
    | cons i indents =>
      rw [hindents] at h
      have hi : ¬ isInner i = true := by
        rw [h i rfl]
        exact Bool.false_ne_true
      exact ⟨List.takeWhile_cons_of_neg hi, List.dropWhile_cons_of_neg hi⟩
  rw [closeBlocks, hnone.1, hnone.2]
  split <;> rfl

/-- Nothing is given up while no key is out of reach. -/
theorem dropStale_of_fresh (hfresh : ∀ key ∈ l.pending, isStale l.cursor key.2 = false) :
    l.dropStale = .ok l := by
  rw [dropStale, if_neg, List.filter_eq_self.mpr]
  · intro key hkey
    show (!isStale l.cursor key.2) = true
    rw [hfresh key hkey]
    rfl
  · rw [Bool.not_eq_true, List.any_eq_false]
    intro key hkey
    show ¬ (isStale l.cursor key.2 && key.2.required) = true
    rw [hfresh key hkey, Bool.false_and]
    exact Bool.false_ne_true

/-- A step reads the token behind what is skipped, if no block node ends there. -/
theorem step_of_dropStale {k : Lexer} {ch : Char}
    (hskip : l.skipToToken (l.cursor.rest.length + 1) = m) (hdrop : m.dropStale = .ok k)
    (hclose : k.closeBlocks (fun i => k.cursor.column < i) = k) (hrest : k.cursor.rest = ch :: tail) :
    l.step = k.tokenAt ch := by
  rw [step, hskip, hdrop, Except.ok_bind]
  dsimp only
  rw [hclose, Cursor.peek, hrest]
  rfl

/-- Where a token starts and nothing is out of reach a step reads that token. -/
theorem step_eq_tokenAt {ch : Char} (hrest : l.cursor.rest = ch :: tail)
    (hstart : StartsToken (ch :: tail)) (hfresh : ∀ key ∈ l.pending, isStale l.cursor key.2 = false)
    (hindents : ∀ i ∈ l.indents.head?, i ≤ l.cursor.column) : l.step = l.tokenAt ch := by
  have hskip : l.skipToToken (l.cursor.rest.length + 1) = l :=
    skipToToken_spaces (n := 0) hrest hstart (Nat.succ_pos _)
  have hclose : l.closeBlocks (fun i => l.cursor.column < i) = l :=
    closeBlocks_eq_self fun i hi => decide_eq_false (Nat.not_lt.mpr (hindents i hi))
  exact step_of_dropStale hskip (dropStale_of_fresh hfresh) hclose hrest

/-! ## States -/

/-- The lexer is outside of brackets and in the given block nodes, and has emitted the tokens. -/
structure Outside (m : Lexer) (indents : List Nat) (ts : List Token) : Prop extends
    Numbered m where
  depth : m.depth = 0
  notDone : m.done = false
  indents : m.indents = indents
  emitted : m.emitted = ts
  /-- What is pending may be given up. -/
  idle : ∀ key ∈ m.pending, key.1 = 0 ∧ key.2.required = false ∧ key.2.line ≤ m.cursor.line

theorem Outside.inFlow (h : m.Outside indents ts) : m.inFlow = false := by
  rw [Lexer.inFlow, h.depth]
  rfl

theorem Outside.optional (h : m.Outside indents ts) : ∀ key ∈ m.pending, key.2.required = false :=
  fun key hkey => (h.idle key hkey).2.1

theorem Outside.filter_pending (h : m.Outside indents ts) :
    (m.pending.filter fun (depth, _) => depth != m.depth) = [] := by
  rw [List.filter_eq_nil_iff]
  intro key hkey
  show ¬ (key.1 != m.depth) = true
  rw [(h.idle key hkey).1, h.depth, bne_self_eq_false]
  exact Bool.false_ne_true

/-- All that is pending is given up. -/
theorem Outside.dropPending (h : m.Outside indents ts) :
    m.dropPending = .ok { m with pending := [] } := by
  rw [dropPending_eq h.optional, h.filter_pending]

theorem Outside.push (h : m.Outside indents ts) (t : Token) :
    (m.push t).Outside indents (ts ++ [t]) where
  toNumbered := h.toNumbered.push t
  depth := h.depth
  notDone := h.notDone
  indents := h.indents
  emitted := by rw [emitted_push, h.emitted]
  idle := h.idle

/-- Without pending keys it does not matter where the lexer stands. -/
theorem Outside.move (h : m.Outside indents ts) (c : Cursor) (allowed : Bool) :
    { m with cursor := c, keyAllowed := allowed, pending := [] }.Outside indents ts where
  slot_lt := h.slot_lt
  key_lt := h.key_lt
  depth := h.depth
  notDone := h.notDone
  indents := h.indents
  emitted := h.emitted
  idle := nofun

/-- Further on the same is pending. -/
theorem Outside.forward (h : m.Outside indents ts) {c : Cursor} (hline : m.cursor.line ≤ c.line)
    (allowed : Bool) : { m with keyAllowed := allowed, cursor := c }.Outside indents ts where
  slot_lt := h.slot_lt
  key_lt := h.key_lt
  depth := h.depth
  notDone := h.notDone
  indents := h.indents
  emitted := h.emitted
  idle key hkey := by
    obtain ⟨hdepth, hrequired, hle⟩ := h.idle key hkey
    exact ⟨hdepth, hrequired, Nat.le_trans hle hline⟩

/-- The lexer stands at a token, in front of which everything has ended that ends there. -/
structure AtToken (r : Lexer) (indents : List Nat) (ts : List Token) (column : Nat)
    (allowed : Bool) (tail : List Char) : Prop extends Outside r indents ts where
  column : r.cursor.column = column
  keyAllowed : r.keyAllowed = allowed
  rest : r.cursor.rest = tail
  fresh : allowed = true → r.pending = []

/-- What a step does at a token. -/
def dispatch (r : Lexer) : Except Fault Lexer :=
  match r.cursor.peek with
  | none => r.finish
  | some ch => r.tokenAt ch

/-- The next step of the lexer is at a token. -/
def Arrives (m : Lexer) (indents : List Nat) (ts : List Token) (column : Nat) (allowed : Bool)
    (tail : List Char) : Prop :=
  ∃ r : Lexer, r.AtToken indents ts column allowed tail ∧ m.step = r.dispatch

/-- The ends of the block nodes that are further to the right than a column. -/
def closing (indents : List Nat) (column : Nat) : List Token :=
  List.replicate (indents.takeWhile (column < ·)).length .blockEnd

/-- The block nodes that are no further to the right than a column. -/
def kept (indents : List Nat) (column : Nat) : List Nat := indents.dropWhile (column < ·)

theorem closing_eq_nil (h : ∀ i ∈ indents.head?, i ≤ column) : closing indents column = [] := by
  cases indents with
  | nil => rfl
  | cons i indents =>
    have hle : i ≤ column := h i rfl
    rw [closing, List.takeWhile_cons_of_neg (by rw [decide_eq_true_eq]; omega)]
    rfl

theorem kept_eq_self (h : ∀ i ∈ indents.head?, i ≤ column) : kept indents column = indents := by
  cases indents with
  | nil => rfl
  | cons i indents =>
    have hle : i ≤ column := h i rfl
    rw [kept, List.dropWhile_cons_of_neg (by rw [decide_eq_true_eq]; omega)]

theorem closing_cons {i : Nat} (h : column < i) :
    closing (i :: indents) column = .blockEnd :: closing indents column := by
  rw [closing, List.takeWhile_cons_of_pos (by rwa [decide_eq_true_eq])]
  rfl

theorem kept_cons {i : Nat} (h : column < i) : kept (i :: indents) column = kept indents column := by
  rw [kept, List.dropWhile_cons_of_pos (by rwa [decide_eq_true_eq])]
  rfl

/-- The ends of block nodes are emitted. -/
theorem Outside.closeBlocks (h : m.Outside indents ts) (isInner : Nat → Bool) :
    (m.closeBlocks isInner).Outside (indents.dropWhile isInner)
      (ts ++ List.replicate (indents.takeWhile isInner).length .blockEnd) := by
  rw [Lexer.closeBlocks, h.inFlow, if_neg Bool.false_ne_true, h.indents]
  dsimp only
  refine ⟨⟨fun id hid => ?_, h.key_lt⟩, h.depth, h.notDone, rfl, ?_, h.idle⟩
  · rw [List.mem_append, List.mem_map] at hid
    obtain ⟨i, -, hi⟩ | hid := hid
    · cases hi
    · exact h.slot_lt id hid
  · show resolveSlots m.keys (List.map _ _ ++ m.read).reverse = _
    rw [List.map_const', List.reverse_append, List.reverse_replicate, resolveSlots_append,
      ← List.map_replicate, resolveSlots_tokens]
    exact congrArg (· ++ _) h.emitted

/-- Skipping leads to a token. Keys may be pending there only if no key may start there. -/
theorem Outside.arrives (h : m.Outside indents ts) {c : Cursor}
    (hskip : m.skipToToken (m.cursor.rest.length + 1) =
      { m with cursor := c, keyAllowed := allowed })
    (hline : m.cursor.line ≤ c.line)
    (hfresh : allowed = true → ∀ key ∈ m.pending, key.2.line < c.line) :
    m.Arrives (kept indents c.column) (ts ++ closing indents c.column) c.column allowed c.rest := by
  have hdrop : { m with cursor := c, keyAllowed := allowed }.dropStale = .ok { m with
      cursor := c
      keyAllowed := allowed
      pending := m.pending.filter fun (_, key) => !isStale c key } := dropStale_eq h.optional
  generalize hr : ({ m with
    cursor := c
    keyAllowed := allowed
    pending := m.pending.filter fun (_, key) => !isStale c key } : Lexer) = r at hdrop
  have hcursor : r.cursor = c := hr ▸ rfl
  have houtside : r.Outside indents ts := by
    subst hr
    refine ⟨⟨h.slot_lt, h.key_lt⟩, h.depth, h.notDone, h.indents, h.emitted, fun key hkey => ?_⟩
    obtain ⟨hdepth, hrequired, hle⟩ := h.idle key (List.mem_of_mem_filter hkey)
    exact ⟨hdepth, hrequired, Nat.le_trans hle hline⟩
  have hclosed : ∀ isInner, (r.closeBlocks isInner).cursor = c ∧
      (r.closeBlocks isInner).keyAllowed = allowed ∧ (r.closeBlocks isInner).pending = r.pending := by
    intro isInner
    rw [Lexer.closeBlocks, houtside.inFlow, if_neg Bool.false_ne_true]
    exact ⟨hcursor, hr ▸ rfl, rfl⟩
  obtain ⟨hplace, hsame, hpending⟩ := hclosed fun i => r.cursor.column < i
  refine ⟨r.closeBlocks fun i => r.cursor.column < i, ⟨?_, by rw [hplace], hsame, by rw [hplace], ?_⟩, ?_⟩
  · rw [hcursor]
    exact houtside.closeBlocks _
  · intro hallowed
    rw [hpending, ← hr, List.filter_eq_nil_iff]
    intro key hkey
    show ¬ (!isStale c key.2) = true
    rw [isStale, bne_iff_ne.mpr (Nat.ne_of_lt (hfresh hallowed key hkey))]
    exact Bool.false_ne_true
  · rw [step, hskip, hdrop]
    rfl

/-- Further on the line nothing ends. -/
theorem Outside.arrives_spaces (h : m.Outside indents ts) (hpending : m.keyAllowed = true → m.pending = [])
    {n : Nat} (hrest : m.cursor.rest = List.replicate n ' ' ++ tail) (htail : StartsToken tail)
    (hindents : ∀ i ∈ indents.head?, i ≤ m.cursor.column + n) :
    m.Arrives indents ts (m.cursor.column + n) m.keyAllowed tail := by
  have hskip := skipToToken_spaces hrest htail (Nat.succ_pos m.cursor.rest.length)
  have harrives := h.arrives hskip (Cursor.line_le_skip n m.cursor) fun hallowed => by
    rw [hpending hallowed]
    nofun
  have hbehind := Cursor.rest_skip_append hrest
  rw [List.length_replicate] at hbehind
  rwa [hbehind, Cursor.column_skip_spaces hrest, kept_eq_self hindents, closing_eq_nil hindents,
    List.append_nil] at harrives

/-- On the next line that ends whose column is further to the right. -/
theorem Outside.arrives_line (h : m.Outside indents ts) {n : Nat}
    (hrest : m.cursor.rest = '\n' :: (List.replicate n ' ' ++ tail)) (htail : StartsToken tail) :
    m.Arrives (kept indents n) (ts ++ closing indents n) n true tail := by
  have hfuel : 1 < m.cursor.rest.length + 1 := by
    rw [hrest, List.length_cons]
    omega
  have hskip := skipToToken_line hrest htail hfuel
  rw [h.inFlow, Bool.not_false, Bool.or_true] at hskip
  obtain ⟨hbehind, hcolumn, hline⟩ := @Cursor.skip_line _ [] _ _ hrest
  rw [List.length_nil, Nat.zero_add, Nat.add_comm] at hbehind hcolumn hline
  have harrives := h.arrives hskip (Nat.le_of_lt hline) fun _ key hkey =>
    Nat.lt_of_le_of_lt (h.idle key hkey).2.2 hline
  rwa [hbehind, hcolumn] at harrives

/-! ## Signs -/

/-- The block nodes that are open behind a sign at a column. -/
def opened (indents : List Nat) (column : Nat) : List Nat :=
  if indents.head? = some column then indents else column :: indents

/-- The token of a block node that a sign at a column opens. -/
def opening (indents : List Nat) (column : Nat) (t : Token) : List Token :=
  if indents.head? = some column then [] else [t]

theorem opensAt_eq (h : m.indents = indents) {column : Nat}
    (hindents : ∀ i ∈ indents.head?, i ≤ column) :
    m.opensAt column = decide (indents.head? ≠ some column) := by
  rw [opensAt, nextIndent, h, decide_eq_decide]
  cases indents with
  | nil => simp
  | cons i indents =>
    have hle := hindents i rfl
    simp only [List.head?_cons, ne_eq, Option.some.injEq]
    omega

theorem Outside.openBlock (h : m.Outside indents ts) {column : Nat}
    (hindents : ∀ i ∈ indents.head?, i ≤ column) (t : Token) :
    (m.openBlock column t).Outside (opened indents column) (ts ++ opening indents column t) := by
  rw [Lexer.openBlock, opensAt_eq h.indents hindents, opened, opening]
  by_cases hsame : indents.head? = some column
  · simp only [hsame, ne_eq, not_true_eq_false, decide_false, Bool.false_eq_true, if_false, if_true,
      List.append_nil]
    exact h
  · simp only [hsame, ne_eq, not_false_eq_true, decide_true, if_true, if_false]
    have hpushed := h.push t
    exact ⟨⟨hpushed.slot_lt, hpushed.key_lt⟩, h.depth, h.notDone, congrArg _ h.indents,
      hpushed.emitted, h.idle⟩

/-- The lexer has read a sign, behind which nothing is pending. -/
structure Behind (m : Lexer) (indents : List Nat) (ts : List Token) (column : Nat)
    (allowed : Bool) (tail : List Char) : Prop extends Outside m indents ts where
  column : m.cursor.column = column
  keyAllowed : m.keyAllowed = allowed
  rest : m.cursor.rest = tail
  pending : m.pending = []

theorem atSeparator_of_endsWord {c : Cursor} {ch : Char} (hrest : c.rest = ch :: tail)
    (hword : endsWord tail.head? = true) : c.atSeparator = false := by
  rw [Cursor.atSeparator, hrest]
  split
  · next heq =>
    obtain ⟨-, rfl⟩ := List.cons.inj heq
    cases hword
  · next heq =>
    obtain ⟨-, rfl⟩ := List.cons.inj heq
    cases hword
  · rfl

/-- A colon at the end of a word is the sign of a value. -/
theorem tokenAt_colon (hrest : l.cursor.rest = ':' :: tail) (hword : endsWord tail.head? = true) :
    l.tokenAt ':' = l.valueSign := by
  rw [tokenAt, Cursor.peekAt_one hrest, hword, Bool.or_true]
  rfl

theorem AtToken.dispatch_eq {ch : Char} (h : r.AtToken indents ts column allowed (ch :: tail)) :
    r.dispatch = r.tokenAt ch := by
  rw [dispatch, Cursor.peek_eq h.rest]

/-- A sign opens a block node unless one is open at its column. -/
theorem AtToken.exists_sign {ch : Char} (h : r.AtToken indents ts column true (ch :: tail))
    (hch : isBreak ch = false) (hmark : ch.toNat ≠ 0xFEFF) (hindents : ∀ i ∈ indents.head?, i ≤ column)
    (start t : Token) :
    ∃ l : Lexer, (r.openBlock r.cursor.column start).dropPending = .ok l ∧ l.inFlow = false ∧
      ({ l with keyAllowed := true }.sign t).Behind (opened indents column)
        (ts ++ opening indents column start ++ [t]) (column + 1) true tail := by
  have hopened := h.toOutside.openBlock hindents start
  rw [h.column]
  refine ⟨_, hopened.dropPending, hopened.inFlow, ?_⟩
  have hcursor : (r.openBlock column start).cursor = r.cursor := by
    rw [Lexer.openBlock]
    split <;> rfl
  refine ⟨(hopened.move (r.openBlock column start).cursor.next true).push t, ?_, rfl, ?_, rfl⟩
  · show (r.openBlock column start).cursor.next.column = column + 1
    rw [hcursor, Cursor.column_next h.rest hch hmark, h.column]
  · show (r.openBlock column start).cursor.next.rest = tail
    rw [hcursor, Cursor.rest_next_eq h.rest]

/-- The hyphen of an item. -/
theorem Arrives.exists_entry (h : m.Arrives indents ts column true ('-' :: tail))
    (hword : endsWord tail.head? = true) (hindents : ∀ i ∈ indents.head?, i ≤ column) :
    ∃ n : Lexer, Reaches 1 m n ∧ n.Behind (opened indents column)
      (ts ++ opening indents column .blockListStart ++ [.entry]) (column + 1) true tail := by
  obtain ⟨r, hr, hstep⟩ := h
  obtain ⟨l, hdrop, -, hbehind⟩ := hr.exists_sign rfl (by decide) hindents .blockListStart .entry
  have hentry : r.tokenAt '-' = .ok ({ l with keyAllowed := true }.sign .entry) := by
    have hsign : r.tokenAt '-' = r.entry := by
      rw [tokenAt, atSeparator_of_endsWord hr.rest hword, Cursor.peekAt_one hr.rest, hword,
        Bool.and_false]
      rfl
    rw [hsign, entry, hr.inFlow, hr.keyAllowed]
    exact Except.bind_eq_ok_iff.mpr ⟨l, hdrop, rfl⟩
  exact ⟨_, .single (hstep.trans (hr.dispatch_eq.trans hentry)) hbehind.notDone, hbehind⟩

/-- The question mark of a key. -/
theorem Arrives.exists_explicitKey (h : m.Arrives indents ts column true ('?' :: tail))
    (hword : endsWord tail.head? = true) (hindents : ∀ i ∈ indents.head?, i ≤ column) :
    ∃ n : Lexer, Reaches 1 m n ∧ n.Behind (opened indents column)
      (ts ++ opening indents column .blockMapStart ++ [.key]) (column + 1) true tail := by
  obtain ⟨r, hr, hstep⟩ := h
  obtain ⟨l, hdrop, hflow, hbehind⟩ := hr.exists_sign rfl (by decide) hindents .blockMapStart .key
  have hkey : r.tokenAt '?' = .ok ({ l with keyAllowed := true }.sign .key) := by
    have hsign : r.tokenAt '?' = r.explicitKey := by
      rw [tokenAt, Cursor.peekAt_one hr.rest, hword, Bool.or_true]
      rfl
    rw [hsign, explicitKey, hr.inFlow, hr.keyAllowed]
    refine Except.bind_eq_ok_iff.mpr ⟨l, hdrop, ?_⟩
    rw [hflow]
    rfl
  exact ⟨_, .single (hstep.trans (hr.dispatch_eq.trans hkey)) hbehind.notDone, hbehind⟩

/-- The colon of a value whose key has a question mark. -/
theorem Arrives.exists_explicitValue (h : m.Arrives indents ts column true (':' :: tail))
    (hword : endsWord tail.head? = true) (hindents : indents.head? = some column) :
    ∃ n : Lexer, Reaches 1 m n ∧ n.Behind indents (ts ++ [.value]) (column + 1) true tail := by
  obtain ⟨r, hr, hstep⟩ := h
  have hle : ∀ i ∈ indents.head?, i ≤ column := by
    rw [hindents]
    rintro i ⟨⟩
    exact Nat.le_refl _
  obtain ⟨l, hdrop, hflow, hbehind⟩ := hr.exists_sign rfl (by decide) hle .blockMapStart .value
  rw [opened, opening, if_pos hindents, if_pos hindents, List.append_nil] at hbehind
  have hvalue : r.tokenAt ':' = .ok ({ l with keyAllowed := true }.sign .value) := by
    rw [tokenAt_colon hr.rest hword, valueSign, hr.fresh rfl]
    dsimp only [Assoc.find?]
    rw [hr.inFlow, hr.keyAllowed]
    refine Except.bind_eq_ok_iff.mpr ⟨l, hdrop, ?_⟩
    rw [hflow]
    rfl
  exact ⟨_, .single (hstep.trans (hr.dispatch_eq.trans hvalue)) hbehind.notDone, hbehind⟩

/-! ## Scalars -/

/-- A slot adds nothing by itself. Where no block node starts the key is optional. -/
theorem AtToken.exists_leaveSlot (h : r.AtToken indents ts column allowed tail)
    (hoptional : allowed = true → indents.head? ≠ some column) :
    ∃ l : Lexer, r.leaveSlot = .ok l ∧ l.Outside indents ts ∧ l.cursor = r.cursor := by
  cases hallowed : r.keyAllowed with
  | false => exact ⟨r, leaveSlot_of_not_allowed hallowed, h.toOutside, rfl⟩
  | true =>
    refine ⟨r.withSlot, leaveSlot_eq h.optional hallowed, ⟨h.toNumbered.withSlot, h.depth, h.notDone,
      h.indents, h.toNumbered.emitted_withSlot.trans h.emitted, fun key hkey => ?_⟩, rfl⟩
    rw [withSlot, h.filter_pending, List.mem_singleton] at hkey
    subst hkey
    refine ⟨h.depth, ?_, Nat.le_refl _⟩
    show (!r.inFlow && r.indents.head? == some r.cursor.column) = false
    rw [h.indents, h.column, beq_eq_false_iff_ne.mpr (hoptional (h.keyAllowed ▸ hallowed)),
      Bool.and_false]

/-- A scalar of one token starts at a token. -/
def ReadsScalar (r : Lexer) (plain : Bool) (text : String) (c : Cursor) (ended : Bool) : Prop :=
  r.dispatch = do
    let l ← r.leaveSlot
    return { l with keyAllowed := ended, cursor := c }.push (.scalar plain text)

/-- Characters are a scalar of one token in a block node at a column, whatever line follows. -/
def LexesScalar (n : Nat) (cs : List Char) (plain : Bool) (text : String) : Prop :=
  ∀ (r : Lexer) (indents : List Nat) (ts : List Token) (column d : Nat) (allowed : Bool)
    (tail : List Char),
    r.AtToken indents ts column allowed (cs ++ '\n' :: (List.replicate d ' ' ++ tail)) →
    indents.head? = some n → n < column → d ≤ n → StartsToken tail →
    ∃ c ended, r.ReadsScalar plain text c ended ∧
      (c = r.cursor.skip cs.length ∨ c = r.cursor.skip (cs.length + 1 + d) ∧ ended = true)

/-- A scalar that is read at a token, with the line behind it. -/
theorem AtToken.exists_line {d : Nat} {cs : List Char} {plain ended : Bool} {text : String} {c : Cursor}
    (hr : r.AtToken indents ts column allowed (cs ++ '\n' :: (List.replicate d ' ' ++ tail)))
    (hstep : m.step = r.dispatch) (hoptional : allowed = true → indents.head? ≠ some column)
    (hreads : r.ReadsScalar plain text c ended)
    (hc : c = r.cursor.skip cs.length ∨ c = r.cursor.skip (cs.length + 1 + d) ∧ ended = true)
    (htail : StartsToken tail) :
    ∃ k : Lexer, Reaches 1 m k ∧
      k.Arrives (kept indents d) (ts ++ [Token.scalar plain text] ++ closing indents d) d true tail := by
  obtain ⟨l, hslot, hl, hcursor⟩ := hr.exists_leaveSlot hoptional
  obtain ⟨hbehind, hcolumn', hline⟩ := Cursor.skip_line hr.rest
  have hforward : l.cursor.line ≤ c.line := by
    rw [hcursor]
    obtain rfl | ⟨rfl, -⟩ := hc
    · exact Cursor.line_le_skip _ _
    · exact Nat.le_of_lt hline
  have hmoved := (hl.forward hforward ended).push (.scalar plain text)
  have hreach : Reaches 1 m ({ l with keyAllowed := ended, cursor := c }.push (.scalar plain text)) := by
    refine .single ?_ hmoved.notDone
    rw [hstep, hreads, hslot]
    rfl
  refine ⟨_, hreach, ?_⟩
  obtain rfl | ⟨rfl, rfl⟩ := hc
  · exact hmoved.arrives_line (Cursor.rest_skip_append hr.rest) htail
  · generalize hk : ({ l with
      keyAllowed := true
      cursor := r.cursor.skip (cs.length + 1 + d) }.push (.scalar plain text) : Lexer) = k at hmoved ⊢
    have hplace : k.cursor = r.cursor.skip (cs.length + 1 + d) := hk ▸ rfl
    have hskip : k.skipToToken (k.cursor.rest.length + 1) =
        { k with cursor := r.cursor.skip (cs.length + 1 + d), keyAllowed := true } := by
      rw [skipToToken_spaces (n := 0) (hplace ▸ hbehind : k.cursor.rest = tail) htail
        (Nat.succ_pos _), ← hk]
      rfl
    have harrives := hmoved.arrives hskip (Nat.le_of_eq (congrArg _ hplace)) fun _ key hkey => by
      rw [← hk] at hkey
      have hle := (hl.idle key hkey).2.2
      rw [hcursor] at hle
      exact Nat.lt_of_le_of_lt hle hline
    rwa [hbehind, hcolumn'] at harrives

/-- A scalar in a block node, with the line behind it. -/
theorem Arrives.exists_scalar {n d : Nat} {cs : List Char} {plain : Bool} {text : String}
    (h : m.Arrives indents ts column allowed (cs ++ '\n' :: (List.replicate d ' ' ++ tail)))
    (hscalar : LexesScalar n cs plain text) (hindents : indents.head? = some n)
    (hcolumn : n < column) (hd : d ≤ n) (htail : StartsToken tail) :
    ∃ k : Lexer, Reaches 1 m k ∧
      k.Arrives (kept indents d) (ts ++ [Token.scalar plain text] ++ closing indents d) d true tail := by
  obtain ⟨r, hr, hstep⟩ := h
  obtain ⟨c, ended, hreads, hc⟩ :=
    hscalar r indents ts column d allowed tail hr hindents hcolumn hd htail
  refine hr.exists_line hstep ?_ hreads hc htail
  rw [hindents, ne_eq, Option.some.injEq]
  exact fun _ => Nat.ne_of_lt hcolumn

/-! ## Keys -/

/-- Characters on one line are a scalar of one token in front of a colon. -/
structure LexesKey (cs : List Char) (plain : Bool) (text : String) : Prop where
  line : IsLine cs
  unmarked : ∀ c ∈ cs, c.toNat ≠ 0xFEFF
  short : cs.length ≤ 1024
  reads : ∀ (r : Lexer) (indents : List Nat) (ts : List Token) (column : Nat) (tail : List Char),
    r.AtToken indents ts column true (cs ++ ':' :: tail) → (∀ i ∈ indents.head?, i ≤ column) →
      endsWord tail.head? = true → r.ReadsScalar plain text (r.cursor.skip cs.length) false

/-- The lexer has read a token behind a slot, and nothing else is pending. -/
structure Waiting (l : Lexer) (key : PendingKey) (indents : List Nat) (ts : List Token) (t : Token)
    (tail : List Char) : Prop extends BehindSlot l key.id ts t where
  depth : l.depth = 0
  notDone : l.done = false
  indents : l.indents = indents
  pending : l.pending = [(0, key)]
  fresh : isStale l.cursor key = false
  rest : l.cursor.rest = tail

/-- A key waits for its colon, which is as far away from its start as the key is long. -/
theorem AtToken.exists_waiting {cs : List Char} {plain : Bool} {text : String}
    (hr : r.AtToken indents ts column true (cs ++ ':' :: tail)) (hkey : LexesKey cs plain text)
    (hword : endsWord tail.head? = true) (hindents : ∀ i ∈ indents.head?, i ≤ column) :
    ∃ (l : Lexer) (key : PendingKey), r.dispatch = .ok l ∧
      l.Waiting key indents ts (.scalar plain text) (':' :: tail) ∧
      key.column = column ∧ l.cursor.column = column + cs.length := by
  have hslot := hr.toNumbered.behindSlot false (r.cursor.skip cs.length) (.scalar plain text)
  rw [hr.emitted] at hslot
  have hfresh : isStale (r.cursor.skip cs.length) r.newKey = false := by
    rw [isStale_newKey hr.rest hkey.line, decide_eq_false_iff_not, Nat.not_lt]
    exact hkey.short
  have hpending : r.withSlot.pending = [(0, r.newKey)] := by
    rw [withSlot, hr.filter_pending, hr.depth]
  have hwaiting : ({ r.withSlot with keyAllowed := false, cursor := r.cursor.skip cs.length }.push
      (.scalar plain text) : Lexer).Waiting r.newKey indents ts (.scalar plain text) (':' :: tail) :=
    ⟨hslot, hr.depth, hr.notDone, hr.indents, hpending, hfresh, Cursor.rest_skip_append hr.rest⟩
  refine ⟨_, _, ?_, hwaiting, hr.column, ?_⟩
  · rw [hkey.reads r indents ts column tail hr hindents hword, leaveSlot_eq hr.optional hr.keyAllowed]
    rfl
  · show (r.cursor.skip cs.length).column = _
    rw [Cursor.column_skip hr.rest hkey.line hkey.unmarked, hr.column]

namespace Waiting

variable {key : PendingKey} {t : Token}

theorem inFlow (h : l.Waiting key indents ts t tail) : l.inFlow = false := by
  rw [Lexer.inFlow, h.depth]
  rfl

/-- A colon makes a key of what waits for it. -/
theorem step_eq (h : l.Waiting key indents ts t (':' :: tail)) (hword : endsWord tail.head? = true)
    (hindents : ∀ i ∈ indents.head?, i ≤ l.cursor.column) :
    l.step = .ok ((l.confirm key).sign .value) := by
  have hcolon : StartsToken (':' :: tail) := by
    rintro ch ⟨⟩
    decide
  have hfresh : ∀ entry ∈ l.pending, isStale l.cursor entry.2 = false := by
    rw [h.pending]
    exact List.forall_mem_singleton.mpr h.fresh
  rw [step_eq_tokenAt h.rest hcolon hfresh (h.indents.symm ▸ hindents), tokenAt_colon h.rest hword,
    valueSign, h.pending, h.depth]
  rfl

/-- The key and, where it opens one, its mapping are put into the slot. -/
theorem emitted_value (h : l.Waiting key indents ts t tail)
    (hindents : ∀ i ∈ indents.head?, i ≤ key.column) :
    ((l.confirm key).sign .value).emitted =
      ts ++ opening indents key.column .blockMapStart ++ [.key, t, .value] := by
  rw [h.toBehindSlot.emitted_confirm, h.inFlow, opensAt_eq h.indents hindents, opening]
  by_cases hopen : indents.head? = some key.column <;> simp [hopen]

/-- What waits for a colon becomes the key of a mapping, which it opens unless one is open at its
column. -/
theorem behind (h : l.Waiting key indents ts t (':' :: tail))
    (hindents : ∀ i ∈ indents.head?, i ≤ key.column) :
    ((l.confirm key).sign .value).Behind (opened indents key.column)
      (ts ++ opening indents key.column .blockMapStart ++ [.key, t, .value]) (l.cursor.column + 1)
      false tail := by
  have hnumbered := h.toBehindSlot.confirm
  have hnothing : ((l.confirm key).sign .value).pending = [] := by
    show (l.pending.filter fun (depth, _) => depth != l.depth) = []
    rw [h.pending, h.depth]
    rfl
  have hopened : (l.confirm key).indents = opened indents key.column := by
    rw [confirm, h.inFlow, opensAt_eq h.indents hindents, h.indents, opened]
    by_cases hopen : indents.head? = some key.column <;> simp [hopen]
  refine ⟨⟨⟨(hnumbered.push .value).slot_lt, hnumbered.key_lt⟩, h.depth, h.notDone, hopened,
    h.emitted_value hindents, ?_⟩, ?_, rfl, Cursor.rest_next_eq h.rest, hnothing⟩
  · rw [hnothing]
    nofun
  · exact Cursor.column_next h.rest rfl (by decide)

end Waiting

/-- A key with its colon opens a mapping unless one is open at its column. -/
theorem Arrives.exists_key {cs : List Char} {plain : Bool} {text : String}
    (h : m.Arrives indents ts column true (cs ++ ':' :: tail)) (hkey : LexesKey cs plain text)
    (hword : endsWord tail.head? = true) (hindents : ∀ i ∈ indents.head?, i ≤ column) :
    ∃ k : Lexer, Reaches 2 m k ∧ k.Behind (opened indents column)
      (ts ++ opening indents column .blockMapStart ++ [.key, .scalar plain text, .value])
      (column + cs.length + 1) false tail := by
  obtain ⟨r, hr, hstep⟩ := h
  obtain ⟨l, key, hscalar, hl, rfl, hcolumn⟩ := hr.exists_waiting hkey hword hindents
  have hnext := hl.step_eq hword fun i hi => hcolumn ▸ Nat.le_add_right_of_le (hindents i hi)
  have hbehind := hl.behind hindents
  rw [hcolumn] at hbehind
  have hfirst : Reaches 1 m l := .single (hstep.trans hscalar) hl.notDone
  exact ⟨_, hfirst.trans (.single hnext hbehind.notDone), hbehind⟩

/-! ## Empty brackets -/

theorem closeFlow_eq (h : ∀ key ∈ l.pending, key.2.required = false) (t : Token) :
    l.closeFlow t = .ok ({ l with
      pending := l.pending.filter fun (depth, _) => depth != l.depth
      depth := l.depth - 1
      keyAllowed := false }.sign t) := by
  rw [closeFlow, dropPending_eq h]
  rfl

/-- Between brackets a step closes no block node. -/
theorem step_in_flow {ch : Char} (hflow : l.inFlow = true)
    (hoptional : ∀ key ∈ l.pending, key.2.required = false) (hrest : l.cursor.rest = ch :: tail)
    (hstart : StartsToken (ch :: tail)) :
    l.step =
      { l with pending := l.pending.filter fun (_, key) => !isStale l.cursor key }.tokenAt ch := by
  have hskip : l.skipToToken (l.cursor.rest.length + 1) = l :=
    skipToToken_spaces (n := 0) hrest hstart (Nat.succ_pos _)
  refine step_of_dropStale hskip (dropStale_eq hoptional) ?_ hrest
  have hopen : { l with pending := l.pending.filter fun (_, key) => !isStale l.cursor key }.inFlow =
      true := hflow
  rw [closeBlocks, hopen, if_pos rfl]

/-- Behind an opening bracket the closing one leads back to where no bracket is open. -/
theorem Outside.exists_closing {right : Char} {last : Token} (h : l.Outside indents ts)
    (first : Token) (hclose : ∀ m : Lexer, m.tokenAt right = m.closeFlow last)
    (hrest : l.cursor.next.rest = right :: tail) (hstart : StartsToken (right :: tail)) :
    ∃ k : Lexer, ({ l with depth := l.depth + 1, keyAllowed := true }.sign first : Lexer).step = .ok k ∧
      k.Outside indents (ts ++ [first, last]) ∧ k.cursor = l.cursor.next.next := by
  generalize hm : ({ l with depth := l.depth + 1, keyAllowed := true }.sign first : Lexer) = m
  have hplace : m.cursor = l.cursor.next := by
    rw [← hm]
    rfl
  have hpending : m.pending = l.pending := by
    rw [← hm]
    rfl
  have hflow : m.inFlow = true := by
    rw [← hm]
    show (l.depth + 1 != 0) = true
    rw [h.depth]
    rfl
  have hemitted : m.emitted = ts ++ [first] := by
    rw [← hm, ← h.emitted]
    exact emitted_push l first
  have hoptional : ∀ key ∈ m.pending, key.2.required = false := hpending ▸ h.optional
  have hnext := step_in_flow hflow hoptional (hplace ▸ hrest) hstart
  rw [hclose, closeFlow_eq fun key hkey => hoptional key (List.mem_of_mem_filter hkey)] at hnext
  have hinner := h.toNumbered.push first
  refine ⟨_, hnext, ⟨Numbered.push ⟨?_, ?_⟩ last, ?_, ?_, ?_, ?_, ?_⟩, congrArg Cursor.next hplace⟩
  · rw [← hm]
    exact hinner.slot_lt
  · rw [← hm]
    exact h.key_lt
  · rw [← hm]
    exact h.depth
  · rw [← hm]
    exact h.notDone
  · rw [← hm]
    exact h.indents
  · refine (emitted_push _ last).trans ?_
    show m.emitted ++ [last] = _
    rw [hemitted, List.append_assoc]
    rfl
  · intro key hkey
    have hmem : key ∈ l.pending := by
      rw [← hpending]
      exact List.mem_of_mem_filter (List.mem_of_mem_filter hkey)
    obtain ⟨hdepth, hrequired, hle⟩ := h.idle key hmem
    refine ⟨hdepth, hrequired, Nat.le_trans hle ?_⟩
    show l.cursor.line ≤ m.cursor.next.line
    rw [hplace]
    exact Nat.le_trans l.cursor.line_le_next (Cursor.line_le_next _)

/-- Empty brackets with the line behind them. -/
theorem Arrives.exists_brackets {n d : Nat} {left right : Char} {first last : Token}
    (h : m.Arrives indents ts column allowed
      (left :: right :: '\n' :: (List.replicate d ' ' ++ tail)))
    (hopen : ∀ m : Lexer, m.tokenAt left = m.openFlow first)
    (hclose : ∀ m : Lexer, m.tokenAt right = m.closeFlow last)
    (hstart : StartsToken (right :: '\n' :: (List.replicate d ' ' ++ tail)))
    (hindents : indents.head? = some n) (hcolumn : n < column) (htail : StartsToken tail) :
    ∃ k : Lexer, Reaches 2 m k ∧
      k.Arrives (kept indents d) (ts ++ [first, last] ++ closing indents d) d true tail := by
  obtain ⟨r, hr, hstep⟩ := h
  have hoptional : allowed = true → indents.head? ≠ some column := by
    rw [hindents, ne_eq, Option.some.injEq]
    exact fun _ => Nat.ne_of_lt hcolumn
  obtain ⟨l, hslot, hl, hcursor⟩ := hr.exists_leaveSlot hoptional
  have hrest : l.cursor.next.rest = right :: '\n' :: (List.replicate d ' ' ++ tail) := by
    rw [hcursor]
    exact Cursor.rest_next_eq hr.rest
  have hopened : m.step = .ok ({ l with depth := l.depth + 1, keyAllowed := true }.sign first) := by
    rw [hstep, hr.dispatch_eq, hopen, openFlow, hslot]
    rfl
  obtain ⟨k, hnext, hk, hplace⟩ := hl.exists_closing first hclose hrest hstart
  refine ⟨k, (Reaches.single hopened hl.notDone).trans (.single hnext hk.notDone),
    hk.arrives_line ?_ htail⟩
  rw [hplace, Cursor.rest_next_eq hrest]

/-! ## The end -/

/-- At the end of the text everything ends. -/
theorem Arrives.exists_finish (h : m.Arrives indents ts column allowed []) :
    ∃ l, m.step = .ok l ∧ l.done = true ∧
      l.emitted = ts ++ List.replicate indents.length .blockEnd := by
  obtain ⟨r, hr, hstep⟩ := h
  have hends : m.step = r.finish := by
    rw [hstep, dispatch, Cursor.peek, hr.rest]
    rfl
  have hclosed : (r.closeBlocks fun _ => true).Outside []
      (ts ++ List.replicate indents.length .blockEnd) := by
    have houter := hr.toOutside.closeBlocks fun _ => true
    have hall : ∀ is : List Nat, is.takeWhile (fun _ => true) = is ∧ is.dropWhile (fun _ => true) = [] := by
      intro is
      induction is with
      | nil => exact ⟨rfl, rfl⟩
      | cons i is ih => exact ⟨congrArg _ ih.1, ih.2⟩
    rwa [(hall indents).1, (hall indents).2] at houter
  refine ⟨{ r.closeBlocks fun _ => true with keyAllowed := false, pending := [], done := true }, ?_, rfl,
    hclosed.emitted⟩
  rw [hends, finish, hclosed.dropPending]
  rfl

end DocSchema.Yaml.Lexer
