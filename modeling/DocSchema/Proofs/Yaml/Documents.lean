import DocSchema.Proofs.Yaml.BlockTexts
import DocSchema.Proofs.Yaml.PortableJson
import DocSchema.Proofs.Yaml.Words

/-!
# Whole documents

A document is a block at the first column, or a scalar. This module reads such a text from its start
to its end: behind a plain text, which goes on over lines, stands a mark of its end.

## Main results

* `read_of_items`, `read_of_entries`: a list or a mapping
* `read_of_plain`: a plain text with the mark of its end
* `read_of_lines`: bytes
-/

namespace DocSchema.Yaml

open Lexer (Reaches)
open DocSchema.Yaml.Parser (YieldsKey YieldsNode)

-- Decisions about the members of a list go through the list and not through all characters.
attribute [local instance (2000)] List.decidableBAll

/-! ## From the start to the end -/

/-- The lexer starts at the first token. -/
theorem Lexer.arrives_start {cs : List Char} (h : StartsToken cs) :
    ({ cursor := { rest := cs } } : Lexer).Arrives [] [] 0 true cs := by
  have houtside : ({ cursor := { rest := cs } } : Lexer).Outside [] [] :=
    ⟨⟨nofun, nofun⟩, rfl, rfl, rfl, rfl, nofun⟩
  exact houtside.arrives_spaces (n := 0) (fun _ => rfl) rfl h nofun

theorem textStart_eq {cs : List Char} (hmark : ∀ c ∈ cs.head?, c.toNat ≠ 0xFEFF) :
    textStart cs = { rest := cs } := by
  cases cs with
  | nil => rfl
  | cons c cs =>
    rw [textStart, if_neg]
    exact hmark c rfl

section Tokens

variable {cs : List Char} {n : Nat} {k : Lexer} (hpermitted : ∀ c ∈ cs, isPermitted c = true)
  (hmark : ∀ c ∈ cs.head?, c.toNat ≠ 0xFEFF) (hreach : Reaches n { cursor := { rest := cs } } k)
  (hfuel : n < cs.length + 2)

include hpermitted hmark hreach hfuel

/-- The tokens of a text that the lexer comes through. -/
theorem tokens_of_arrives {indents : List Nat} {ts : List Token} {column : Nat} {allowed : Bool}
    (hk : k.Arrives indents ts column allowed []) :
    tokens (String.ofList cs) = .ok (ts ++ List.replicate indents.length .blockEnd) := by
  obtain ⟨r, hstep, hdone, hemitted⟩ := hk.exists_finish
  rw [tokens, String.toList_ofList, if_pos (List.all_eq_true.mpr hpermitted), textStart_eq hmark]
  exact Except.bind_eq_ok_iff.mpr ⟨r, Lexer.run_eq hreach hstep hdone hfuel,
    congrArg Except.ok hemitted⟩

/-- A text that the lexer does not come through is refused. -/
theorem read_of_fault {fault : Fault} (hk : k.step = .error fault) :
    read (String.ofList cs) = .error fault := by
  rw [read, tokens, String.toList_ofList, if_pos (List.all_eq_true.mpr hpermitted),
    textStart_eq hmark, Lexer.run_eq_error hreach hk hfuel]
  rfl

end Tokens

/-- A text whose tokens are parsed to a value, with marks of its end behind them. -/
theorem read_of_yields {text : String} {ts marks : List Token} {v : Value}
    (htokens : tokens text = .ok (ts ++ marks)) (hmarks : Parser.atEnd marks = true)
    (hopens : Parser.endsDocument ts = false) (h : YieldsNode false ts v) : read text = .ok v := by
  obtain ⟨n, hn, hvalue⟩ := h.parses (4 * (ts ++ marks).length + 8)
    { handles := Parser.standardHandles } marks (by rw [List.length_append]; omega) rfl nofun
  have hround : Parser.round [] (ts ++ marks) =
      .ok (some n, { handles := Parser.standardHandles }) := by
    obtain ⟨t, rest, rfl, -⟩ := h.begins
    rw [List.cons_append] at hn ⊢
    cases t <;> first
      | exact Except.bind_eq_ok_iff.mpr ⟨_, hn, if_pos hmarks⟩
      | cases hopens
  have hdocument : n.toValue = .ok v := by
    rw [Node.toValue, hvalue]
    rfl
  exact Except.bind_eq_ok_iff.mpr ⟨_, htokens, Except.bind_eq_ok_iff.mpr
    ⟨some n, Except.bind_eq_ok_iff.mpr ⟨_, hround, rfl⟩, hdocument⟩⟩

/-! ## Blocks -/

/-- A block at the first column. -/
theorem read_of_block {start : Token} {cs : List Char} {ts : List Token} {v : Value}
    (h : LexesBlock start 0 cs ts) (hstart : StartsToken cs) (hne : cs ≠ [])
    (hpermitted : ∀ c ∈ cs, isPermitted c = true) (hmark : ∀ c ∈ cs.head?, c.toNat ≠ 0xFEFF)
    (hopens : Parser.endsDocument [start] = false)
    (hyields : YieldsNode false (start :: (ts ++ [.blockEnd])) v) :
    read (String.ofList (cs ++ ['\n'])) = .ok v := by
  obtain ⟨k, hreach, hk⟩ := h { cursor := { rest := cs ++ ['\n'] } } [] [] 0 [] nofun (Nat.le_refl 0)
    nofun (Lexer.arrives_start (startsToken_append hstart hne))
  have htokens := @tokens_of_arrives (cs ++ ['\n']) _ _
    (List.forall_mem_append.mpr ⟨hpermitted, by decide⟩)
    (by rwa [List.head?_append_of_ne_nil _ hne]) hreach (by rw [List.length_append]; omega)
    _ _ _ _ hk
  have hall : [] ++ Lexer.opening [] 0 start ++ ts ++ Lexer.closing (Lexer.opened [] 0) 0 ++
      List.replicate (Lexer.kept (Lexer.opened [] 0) 0).length Token.blockEnd =
      start :: (ts ++ [.blockEnd]) ++ [] := by
    show [start] ++ ts ++ [] ++ [Token.blockEnd] = _
    simp
  rw [hall] at htokens
  refine read_of_yields htokens rfl ?_ hyields
  cases start <;> first | rfl | cases hopens

theorem read_of_items {cs : List Char} {vs : List Value} (h : ReadsBlockItems 0 cs vs) :
    read (String.ofList (cs ++ ['\n'])) = .ok (.list vs) := by
  obtain ⟨ts, hlexes, hyields⟩ := h.reads
  refine read_of_block hlexes (startsToken_hyphen h.starts) (nonempty_of_head? h.starts) h.permitted
    (fun c hc => ?_) rfl (hyields.list false)
  rw [h.starts] at hc
  obtain rfl := Option.some.inj hc
  decide

theorem read_of_entries {cs : List Char} {entries : List (Value × Value)}
    (h : ReadsBlockEntries 0 cs entries) (hdistinct : Value.mapping entries = .map entries) :
    read (String.ofList (cs ++ ['\n'])) = .ok (.map entries) := by
  obtain ⟨ts, hlexes, hyields⟩ := h.reads
  exact read_of_block hlexes h.starts h.nonempty h.permitted h.unmarked rfl
    (hyields.map hdistinct false)

/-! ## Bytes -/

theorem read_of_lines {line : List Char} {lines : List (List Char)} {content : List UInt8}
    (hlines : ∀ l ∈ line :: lines, IsBlockLine l)
    (hpermitted : ∀ l ∈ line :: lines, ∀ c ∈ l, isPermitted c = true)
    (h : Scalar.binary (String.ofList ((line :: lines).flatMap (· ++ ['\n']))) = .ok content) :
    read (String.ofList (Lexer.taggedBlock 2 line lines ++ ['\n'])) = .ok (.bytes content) := by
  have hstart := Lexer.startsToken_taggedBlock 2 line lines
  have harrives := Lexer.arrives_start (hstart ['\n'])
  obtain ⟨k, hreach, hk⟩ := @Lexer.Arrives.exists_taggedBlock [] _ _ _ _ _ _ 0 _ _ harrives hlines
    (Nat.succ_pos 1) nofun nofun (Nat.succ_pos 1) nofun
  have hmark : ∀ c ∈ (Lexer.taggedBlock 2 line lines ++ ['\n']).head?, c.toNat ≠ 0xFEFF := by
    intro c hc
    rw [Lexer.taggedBlock_append, head?_binaryWord] at hc
    obtain rfl := Option.some.inj hc
    decide
  have htokens := tokens_of_arrives (List.forall_mem_append.mpr
    ⟨Lexer.permitted_taggedBlock hpermitted, by decide⟩) hmark hreach
    (by rw [List.length_append, List.length_singleton]; omega) hk
  exact @read_of_yields _ [.tag binaryTag, .scalar false _] [] _ htokens rfl rfl
    ((Parser.yieldsKey_binary h).node false)

/-! ## Plain texts -/

/-- A mark of the end of a document. -/
def endMark : List Char := ['.', '.', '.']

theorem Cursor.atSeparator_endMark {c : Cursor} {rest : List Char}
    (h : c.rest = endMark ++ '\n' :: rest) : c.atSeparator = true := by
  rw [Cursor.atSeparator, h]
  rfl

/-- At a mark of its end a plain text ends. -/
theorem plainSpacing_endMark {c : Cursor} {rest : List Char}
    (h : c.rest = '\n' :: (endMark ++ '\n' :: rest)) : plainSpacing c = ([], c.next, true) := by
  have hnone : c.takeWhile (· == ' ') = [] := by
    rw [Cursor.takeWhile, h]
    rfl
  have hspaces : c.skipSpaces = c := Cursor.skipSpaces_eq (n := 0) h (by rintro _ ⟨⟩; decide)
  have hnext : c.next.rest = endMark ++ '\n' :: rest := Cursor.rest_next_eq h
  rw [plainSpacing, hnone, hspaces, Cursor.lineBreak?_newline h]
  dsimp only
  rw [Cursor.atSeparator_endMark hnext, if_pos rfl]

/-- A mark of the end of a document, with the line behind it. -/
theorem Lexer.Arrives.exists_endMark {m : Lexer} {ts : List Token} {rest : List Char}
    (h : m.Arrives [] ts 0 true (endMark ++ '\n' :: rest)) (hrest : StartsToken rest) :
    ∃ k, Reaches 1 m k ∧ k.Arrives [] (ts ++ [.documentEnd]) 0 true rest := by
  obtain ⟨r, hr, hstep⟩ := h
  have hseparator : r.dispatch = r.separator .documentEnd := by
    have hplace : r.cursor.rest = '.' :: '.' :: '.' :: '\n' :: rest := hr.rest
    have hmark := Cursor.atSeparator_endMark hr.rest
    rw [Lexer.dispatch, Cursor.peek, hplace]
    show r.tokenAt '.' = _
    rw [tokenAt, hr.column, hmark]
    rfl
  have hclosed : r.closeBlocks (fun _ => true) = r := closeBlocks_eq_self (by rw [hr.indents]; rintro _ ⟨⟩)
  have hmoved := (hr.toOutside.move (r.cursor.skip 3) false).push .documentEnd
  have harrives := hmoved.arrives_line (n := 0) (@Cursor.rest_skip_append _ endMark _ hr.rest) hrest
  rw [@closing_eq_nil [] _ (by rintro _ ⟨⟩), List.append_nil] at harrives
  refine ⟨_, .single (hstep.trans ?_) hmoved.notDone, harrives⟩
  rw [hseparator, separator, hclosed]
  exact Except.bind_eq_ok_iff.mpr ⟨_, hr.toOutside.dropPending, rfl⟩

/-- A plain text with the mark of its end. -/
theorem read_of_plain {cs text : List Char} {v : Value} (h : SpellsPlain 2 cs text)
    (hopens : opensWithIndicator text = false) (hyields : YieldsKey [.scalar true (String.ofList text)] v) :
    read (String.ofList (cs ++ '\n' :: (endMark ++ ['\n']))) = .ok v := by
  obtain ⟨r, hr, hstep⟩ := Lexer.arrives_start (h.startsToken ('\n' :: (endMark ++ ['\n'])))
  have hdispatch := h.dispatch_eq hopens hr (by rintro c ⟨⟩; decide)
  have hnext : r.nextIndent = 0 := by
    rw [Lexer.nextIndent, hr.indents]
  have hfuel : cs.length < r.cursor.rest.length + 1 := by
    rw [hr.rest, List.length_append]
    omega
  have hread : readPlain r.inFlow r.nextIndent r.cursor =
      (String.ofList text, r.cursor.skip (cs.length + 1), true) := by
    rw [readPlain, hr.inFlow, hnext, h.readsPlain (Nat.succ_pos 1) (Nat.zero_le 2)
      (stopsPlain_of_isSpacing rfl _) hr.rest (Nat.zero_le _)
      (plainSpacing_endMark (Cursor.rest_skip_append hr.rest)) (.inl rfl) hfuel, Cursor.skip_add]
    rfl
  obtain ⟨k, hfirst, hk⟩ := @Lexer.AtToken.exists_line _ _ _ _ _ _ (endMark ++ ['\n']) 0 _ _ _ _ _ hr hstep
    (by rintro - ⟨⟩) (Lexer.readsScalar_plain hdispatch hread) (.inr ⟨rfl, rfl⟩)
    (by rintro c ⟨⟩; decide)
  obtain ⟨j, hsecond, hj⟩ := hk.exists_endMark (by rintro c ⟨⟩)
  have hmark : ∀ c ∈ (cs ++ '\n' :: (endMark ++ ['\n'])).head?, c.toNat ≠ 0xFEFF := by
    obtain ⟨first, rest, rfl, hfirst, -⟩ := h.exists_head
    rintro c ⟨⟩
    exact unmarked_of_printable (printable_of_isVisible hfirst)
  have htokens := tokens_of_arrives (List.forall_mem_append.mpr ⟨h.permitted, by decide⟩) hmark
    (hfirst.trans hsecond) (by rw [List.length_append, List.length_cons]; omega) hj
  exact @read_of_yields _ _ [.documentEnd] _ htokens rfl rfl (hyields.node false)

end DocSchema.Yaml
