import DocSchema.Proofs.Yaml.Layout
import DocSchema.Proofs.Yaml.Quoted
import DocSchema.Proofs.Yaml.Words

/-!
# Quoted scalars outside of brackets

Between single quotes a single space may be written as the start of a new line, and line feeds
stand on lines of their own. A quoted text is one token, as a scalar and as a key.

## Main definitions

* `SpellsSingle`: what stands between single quotes and what it is read as
* `ReadsQuoted`: a quoted text with its quotes

## Main results

* `SpellsSingle.readsQuoted`, `Spells.readsQuoted`: texts between single and between double quotes
* `ReadsQuoted.readsScalar`, `ReadsQuoted.readsKey`: a quoted text as a scalar and as a key
-/

namespace DocSchema.Yaml

/-! ## Single quotes -/

/-- What stands between single quotes, with further lines at a column, and what it is read as. -/
inductive SpellsSingle (indent : Nat) : List Char → List Char → Prop
  | nil : SpellsSingle indent [] []
  | char {c : Char} {cs read : List Char} (hc : isVisible c = true) (hquote : c ≠ '\'')
    (hrest : SpellsSingle indent cs read) : SpellsSingle indent (c :: cs) (c :: read)
  | quote {cs read : List Char} (hrest : SpellsSingle indent cs read) :
    SpellsSingle indent ('\'' :: '\'' :: cs) ('\'' :: read)
  | spaces {k : Nat} {cs read : List Char} (hhead : ∀ c ∈ read.head?, isSpacing c = false)
    (hrest : SpellsSingle indent cs read) :
    SpellsSingle indent (List.replicate (k + 1) ' ' ++ cs) (List.replicate (k + 1) ' ' ++ read)
  /-- The end of a line is read as a space, and further ones as themselves. -/
  | lines {k : Nat} {cs read : List Char} (hhead : ∀ c ∈ read.head?, isSpacing c = false)
    (hrest : SpellsSingle indent cs read) :
    SpellsSingle indent ('\n' :: (List.replicate k '\n' ++ (List.replicate indent ' ' ++ cs)))
      ((if k = 0 then [' '] else List.replicate k '\n') ++ read)

theorem SpellsSingle.permitted {indent : Nat} {cs read : List Char} (h : SpellsSingle indent cs read) :
    ∀ c ∈ cs, isPermitted c = true := by
  have hrun : ∀ (k : Nat) (d : Char), isPermitted d = true →
      ∀ c ∈ List.replicate k d, isPermitted c = true := by
    intro k d hd c hc
    rw [List.eq_of_mem_replicate hc]
    exact hd
  induction h with
  | nil => nofun
  | char hc _ _ ih =>
    exact List.forall_mem_cons.mpr ⟨isPermitted_of_printable (printable_of_isVisible hc), ih⟩
  | quote _ ih => exact List.forall_mem_cons.mpr ⟨rfl, List.forall_mem_cons.mpr ⟨rfl, ih⟩⟩
  | spaces _ _ ih => exact List.forall_mem_append.mpr ⟨hrun _ ' ' rfl, ih⟩
  | lines _ _ ih =>
    exact List.forall_mem_cons.mpr ⟨rfl, List.forall_mem_append.mpr
      ⟨hrun _ '\n' rfl, List.forall_mem_append.mpr ⟨hrun _ ' ' rfl, ih⟩⟩⟩

/-- Line ends with the indentation behind them. -/
theorem foldedBreaks_lines {k n fuel : Nat} {c : Cursor} {tail : List Char} (hn : 0 < n)
    (hrest : c.rest = List.replicate k '\n' ++ (List.replicate n ' ' ++ tail))
    (htail : ∀ ch ∈ tail.head?, isSpacing ch = false) (hfuel : k < fuel) :
    foldedBreaks fuel c = .ok (List.replicate k '\n', c.skip (k + n)) := by
  obtain ⟨fuel, rfl⟩ := Nat.exists_eq_add_of_le' (Nat.one_le_of_lt hfuel)
  induction k generalizing c fuel with
  | zero =>
    rw [Nat.zero_add]
    exact foldedBreaks_indentation hn hrest htail fuel
  | succ k ih =>
    rw [List.replicate_succ, List.cons_append] at hrest
    obtain ⟨fuel, rfl⟩ := Nat.exists_eq_add_of_le' (Nat.one_le_of_lt (Nat.lt_of_succ_lt_succ hfuel))
    have hseparator : c.atSeparator = false := by
      rw [Cursor.atSeparator, hrest]
      rfl
    have hskip : c.skipWhile isSpaceOrTab = c := by
      rw [Cursor.skipWhile, hrest]
      rfl
    have hbreak : c.lineBreak? = some ('\n', c.next) := Cursor.lineBreak?_newline hrest
    have hnext : c.next.rest = List.replicate k '\n' ++ (List.replicate n ' ' ++ tail) := Cursor.rest_next_eq hrest
    rw [foldedBreaks, hseparator, if_neg Bool.false_ne_true, hskip]
    dsimp only
    rw [hbreak]
    show (foldedBreaks (fuel + 1) c.next).bind _ = _
    rw [ih hnext fuel (Nat.lt_of_succ_lt_succ hfuel), Nat.succ_add, Cursor.skip_succ, List.replicate_succ]
    rfl

/-- Line ends inside a quoted text. -/
theorem quotedSpacing_lines {k n : Nat} {c : Cursor} {tail : List Char} (hn : 0 < n)
    (hrest : c.rest = '\n' :: (List.replicate k '\n' ++ (List.replicate n ' ' ++ tail)))
    (htail : ∀ ch ∈ tail.head?, isSpacing ch = false) :
    quotedSpacing c =
      .ok (if k = 0 then [' '] else List.replicate k '\n', c.skip (1 + k + n)) := by
  have hskip : c.skipWhile isSpaceOrTab = c := by
    rw [Cursor.skipWhile, hrest]
    rfl
  have hbreak : c.lineBreak? = some ('\n', c.next) := Cursor.lineBreak?_newline hrest
  have hnext : c.next.rest = List.replicate k '\n' ++ (List.replicate n ' ' ++ tail) := Cursor.rest_next_eq hrest
  have hfuel : k < c.next.rest.length + 1 := by
    rw [hnext, List.length_append, List.length_replicate]
    omega
  have hfold : foldLine '\n' (List.replicate k '\n') = if k = 0 then [' '] else List.replicate k '\n' := by
    cases k <;> rfl
  rw [quotedSpacing, hskip]
  dsimp only
  rw [hbreak]
  show (foldedBreaks (c.next.rest.length + 1) c.next).bind _ = _
  rw [foldedBreaks_lines hn hnext htail hfuel]
  show Except.ok (foldLine '\n' (List.replicate k '\n'), c.next.skip (k + n)) = _
  rw [hfold, ← Cursor.skip_succ, Nat.add_comm 1 k, Nat.add_right_comm]

/-- No spacing is written where none is read. -/
theorem SpellsSingle.head_append {indent : Nat} {cs read tail : List Char}
    (h : SpellsSingle indent cs read) (hhead : ∀ c ∈ read.head?, isSpacing c = false) :
    ∀ c ∈ (cs ++ '\'' :: tail).head?, isSpacing c = false := by
  cases h with
  | nil =>
    rintro c ⟨⟩
    rfl
  | char hc =>
    rintro c ⟨⟩
    exact isSpacing_of_isVisible hc
  | quote =>
    rintro c ⟨⟩
    rfl
  | spaces => cases hhead ' ' rfl
  | @lines k =>
    cases k with
    | zero => cases hhead ' ' rfl
    | succ k => cases hhead '\n' rfl

theorem readsBody_single_nil {tail : List Char} (htail : tail.head? ≠ some '\'') :
    ReadsBody false [] [] ('\'' :: tail) := by
  intro fuel before c hfuel hrest
  obtain ⟨fuel, rfl⟩ := Nat.exists_eq_succ_of_ne_zero (Nat.ne_zero_of_lt hfuel)
  have hpeek : c.peek = some '\'' := Cursor.peek_eq hrest
  have hbehind : (c.peekAt 1 == some '\'') = false := by
    rw [beq_eq_false_iff_ne, Cursor.peekAt_one hrest]
    exact htail
  rw [quotedBody, hpeek]
  dsimp only
  rw [hbehind, if_neg Bool.false_ne_true, List.append_nil]
  rfl

theorem readsPiece_char {d : Char} (hd : isVisible d = true) (hquote : d ≠ '\'') (tail : List Char) :
    ReadsPiece false [d] [d] tail := by
  intro fuel before c hrest
  have hpeek : c.peek = some d := Cursor.peek_eq hrest
  rw [quotedBody, hpeek]
  dsimp only
  rw [beq_eq_false_iff_ne.mpr hquote, isSpacing_of_isVisible hd]
  simp only [Bool.false_and, Bool.and_false, Bool.false_eq_true, if_false]
  rfl

theorem readsPiece_quote (tail : List Char) : ReadsPiece false ['\'', '\''] ['\''] tail := by
  intro fuel before c hrest
  have hpeek : c.peek = some '\'' := Cursor.peek_eq hrest
  have hbehind : c.peekAt 1 = some '\'' := Cursor.peekAt_one hrest
  rw [quotedBody, hpeek]
  dsimp only
  rw [hbehind]
  rfl

theorem readsPiece_lines {n : Nat} {tail : List Char} (hn : 0 < n)
    (htail : ∀ ch ∈ tail.head?, isSpacing ch = false) (double : Bool) (k : Nat) :
    ReadsPiece double ('\n' :: (List.replicate k '\n' ++ List.replicate n ' '))
      (if k = 0 then [' '] else List.replicate k '\n') tail := by
  intro fuel before c hrest
  have hpeek : c.peek = some '\n' := Cursor.peek_eq hrest
  rw [List.cons_append, List.append_assoc] at hrest
  rw [quotedBody, hpeek]
  show (quotedSpacing c).bind _ = _
  rw [quotedSpacing_lines hn hrest htail, List.length_cons, List.length_append, List.length_replicate,
    List.length_replicate, Nat.add_comm (k + n), Nat.add_assoc]
  rfl

theorem SpellsSingle.readsBody {indent : Nat} {cs read tail : List Char}
    (h : SpellsSingle indent cs read) (hindent : 0 < indent) (htail : tail.head? ≠ some '\'') :
    ReadsBody false cs read ('\'' :: tail) := by
  induction h with
  | nil => exact readsBody_single_nil htail
  | char hd hquote _ ih => exact ih.cons (List.cons_ne_nil _ []) (readsPiece_char hd hquote _)
  | quote _ ih => exact ih.cons (List.cons_ne_nil _ _) (readsPiece_quote _)
  | @spaces k cs read hhead hspells ih =>
    exact ih.spaces (by simp) (hspells.head_append hhead) (k + 1)
  | @lines k cs read hhead hspells ih =>
    have hbody := ih.cons (List.cons_ne_nil _ _)
      (readsPiece_lines hindent (hspells.head_append hhead) false k)
    rwa [List.cons_append, List.append_assoc] at hbody

/-! ## Quoted texts -/

/-- A text with its quotes, which are read as one text. No quote follows a text between single
quotes. -/
structure ReadsQuoted (double : Bool) (cs : List Char) (text : String) : Prop where
  starts : cs.head? = some (if double then '"' else '\'')
  reads : ∀ (c : Cursor) (tail : List Char), tail.head? ≠ some '\'' → c.rest = cs ++ tail →
    readQuoted double c = .ok (text, c.skip cs.length)

theorem SpellsSingle.readsQuoted {indent : Nat} {cs read : List Char} (h : SpellsSingle indent cs read)
    (hindent : 0 < indent) : ReadsQuoted false ('\'' :: (cs ++ ['\''])) (String.ofList read) where
  starts := rfl
  reads c tail htail hrest := by
    simp only [List.cons_append, List.append_assoc, List.nil_append] at hrest
    rw [(h.readsBody hindent htail).readQuoted hrest, List.length_cons, List.length_append]
    rfl

theorem Spells.readsQuoted {cs read : List Char} (h : Spells cs read) :
    ReadsQuoted true ('"' :: (cs ++ ['"'])) (String.ofList read) where
  starts := rfl
  reads c tail _ hrest := by
    simp only [List.cons_append, List.append_assoc, List.nil_append] at hrest
    rw [readQuoted_of_spells h hrest, List.length_cons, List.length_append]
    rfl

theorem ReadsQuoted.startsToken {double : Bool} {cs : List Char} {text : String}
    (h : ReadsQuoted double cs text) : StartsToken cs := by
  intro c hc
  obtain rfl : (if double then '"' else '\'') = c := Option.some.inj (h.starts.symm.trans hc)
  cases double <;> decide

theorem ReadsQuoted.nonempty {double : Bool} {cs : List Char} {text : String}
    (h : ReadsQuoted double cs text) : cs ≠ [] := nonempty_of_head? h.starts

/-- At a quote a quoted text is read. -/
theorem ReadsQuoted.readsScalar_skip {double : Bool} {cs : List Char} {text : String}
    (h : ReadsQuoted double cs text) {r : Lexer} {indents : List Nat} {ts : List Token} {column : Nat}
    {allowed : Bool} {tail : List Char} (hr : r.AtToken indents ts column allowed (cs ++ tail))
    (htail : tail.head? ≠ some '\'') :
    r.ReadsScalar false text (r.cursor.skip cs.length) false := by
  obtain ⟨rest, hcs⟩ := List.head?_eq_some_iff.mp h.starts
  have hquoted : r.dispatch = r.quoted double := by
    rw [hcs] at hr
    rw [hr.dispatch_eq]
    cases double <;> rfl
  rw [Lexer.ReadsScalar, hquoted, Lexer.quoted]
  cases hslot : r.leaveSlot with
  | error fault => rfl
  | ok l =>
    have hcursor := (Lexer.leaveSlot_same hslot).1
    show (readQuoted double l.cursor).bind _ = _
    rw [hcursor, h.reads r.cursor tail htail hr.rest]
    rfl

theorem ReadsQuoted.lexesScalar {double : Bool} {cs : List Char} {text : String}
    (h : ReadsQuoted double cs text) (n : Nat) : Lexer.LexesScalar n cs false text := by
  intro r indents ts column d allowed tail hr _ _ _ _
  exact ⟨_, false, h.readsScalar_skip hr (by rintro ⟨⟩), .inl rfl⟩

/-- A quoted text is a scalar. -/
theorem ReadsQuoted.readsScalar {double : Bool} {cs : List Char} {text : String}
    (h : ReadsQuoted double cs text) (hpermitted : ∀ c ∈ cs, isPermitted c = true) (n : Nat) :
    ReadsScalar n (' ' :: cs) (.text text) where
  starts := rfl
  permitted := List.forall_mem_cons.mpr ⟨rfl, hpermitted⟩
  reads := ⟨_, (h.lexesScalar n).node h.startsToken h.nonempty, Parser.yieldsKey_scalar rfl rfl rfl⟩

/-- A quoted text on one line is a key. -/
theorem ReadsQuoted.readsKey {double : Bool} {cs : List Char} {text : String}
    (h : ReadsQuoted double cs text) (hline : ∀ c ∈ cs, 32 ≤ c.toNat ∧ c.toNat ≤ 126)
    (hlength : cs.length ≤ 1024) : ReadsKey cs (.text text) where
  nonempty := h.nonempty
  starts := h.startsToken
  permitted c hc := isPermitted_of_printable (hline c hc)
  reads := ⟨false, text,
    { line := fun c hc => isBreak_of_printable (hline c hc)
      unmarked := fun c hc => unmarked_of_printable (hline c hc)
      short := hlength
      reads := fun _ _ _ _ _ hr _ _ => h.readsScalar_skip hr (by rintro ⟨⟩) },
    Parser.yieldsKey_scalar rfl rfl rfl⟩

end DocSchema.Yaml
