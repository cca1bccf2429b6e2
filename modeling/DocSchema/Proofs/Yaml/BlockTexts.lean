import DocSchema.Proofs.Yaml.Layout

/-!
# Block texts

A block text stands on lines of its own below its sign. This module reads such a text whose lines
are indented alike and hold no spacing at their start, up to a line that is indented less. It also
reads the tag of bytes, which stands in front of the sign.

## Main definitions

* `IsBlockLine`: a line of a block text
* `blockRest`: the further lines of a block text

## Main results

* `Lexer.Arrives.exists_block`: a block text is one token
* `Lexer.Arrives.exists_tag`: the tag of bytes is one token
-/

namespace DocSchema.Yaml

-- Decisions about the members of a list go through the list and not through all characters.
attribute [local instance (2000)] List.decidableBAll

/-! ## Lines -/

/-- A line of a block text, without the indentation. -/
structure IsBlockLine (l : List Char) : Prop where
  nonempty : l ≠ []
  isLine : IsLine l
  unmarked : ∀ c ∈ l, c.toNat ≠ 0xFEFF
  starts : ∀ c ∈ l.head?, c ≠ ' '

/-- The further lines of a block text, with what ends the line in front of each. -/
def blockRest (indent : Nat) (lines : List (List Char)) : List Char :=
  lines.flatMap fun l => '\n' :: (List.replicate indent ' ' ++ l)

theorem blockRest_cons (indent : Nat) (l : List Char) (lines : List (List Char)) :
    blockRest indent (l :: lines) = '\n' :: (List.replicate indent ' ' ++ (l ++ blockRest indent lines)) := by
  rw [blockRest, List.flatMap_cons, List.cons_append, List.append_assoc]
  rfl

theorem length_le_blockRest (indent : Nat) (lines : List (List Char)) :
    lines.length ≤ (blockRest indent lines).length := by
  induction lines with
  | nil => exact Nat.zero_le _
  | cons l lines ih =>
    rw [blockRest_cons, List.length_cons, List.length_cons, List.length_append, List.length_append]
    omega

variable {c : Cursor} {tail : List Char} {indent : Nat}

/-- At the start of a line its indentation is skipped. -/
theorem innerBreaks_line {k fuel : Nat} (hk : k ≤ indent) (hcolumn : c.column = 0)
    (hrest : c.rest = List.replicate k ' ' ++ tail)
    (htail : ∀ ch ∈ tail.head?, ch ≠ ' ' ∧ isBreak ch = false) (hfuel : 0 < fuel) :
    innerBreaks indent fuel [] c = ([], c.skip k) := by
  obtain ⟨fuel, rfl⟩ := Nat.exists_eq_add_of_le' hfuel
  have hrun : c.rest.takeWhile (· == ' ') = List.replicate k ' ' := by
    rw [hrest]
    exact Cursor.takeWhile_append_of_forall
      (fun ch hch => by rw [List.eq_of_mem_replicate hch]; rfl)
      fun ch hch => beq_eq_false_iff_ne.mpr (htail ch hch).1
  have hskip : c.skipIndent indent = c.skip k := by
    rw [Cursor.skipIndent, hrun, hcolumn, List.length_replicate, Nat.sub_zero, Nat.min_eq_right hk]
  have hbehind := Cursor.rest_skip_append hrest
  rw [List.length_replicate] at hbehind
  have hbreak : (c.skip k).lineBreak? = none :=
    Cursor.lineBreak?_eq_none fun ch hch => (htail ch (hbehind ▸ hch)).2
  rw [innerBreaks, hskip, hbreak]
  rfl

theorem startsToken_head {cs : List Char} (h : StartsToken cs) :
    ∀ ch ∈ cs.head?, ch ≠ ' ' ∧ isBreak ch = false := fun ch hch => ⟨(h ch hch).1, (h ch hch).2.2⟩

theorem IsBlockLine.head {l more : List Char} (h : IsBlockLine l) :
    ∀ ch ∈ (l ++ more).head?, ch ≠ ' ' ∧ isBreak ch = false := by
  obtain ⟨c, l, rfl⟩ := List.exists_cons_of_ne_nil h.nonempty
  rintro _ ⟨⟩
  exact ⟨h.starts c rfl, h.isLine c List.mem_cons_self⟩

/-- A line with the indentation of the next one. -/
theorem line_of_blockLines {line : List Char} (hline : IsBlockLine line) {k : Nat}
    (hrest : c.rest = line ++ '\n' :: (List.replicate k ' ' ++ tail))
    (htail : ∀ ch ∈ tail.head?, ch ≠ ' ' ∧ isBreak ch = false) (hk : k ≤ indent)
    (hcolumn : c.column = indent) (fuel : Nat) (read : List (List Char)) (lineEnd : List Char) :
    blockLines false .clip indent (fuel + 1) read [] lineEnd c =
      if atBlockLine indent (c.skip (line.length + 1 + k)) then
        blockLines false .clip indent fuel (['\n'] :: line :: [] :: read) [] ['\n']
          (c.skip (line.length + 1 + k))
      else ((['\n'] :: line :: [] :: read).reverse.flatten, c.skip (line.length + 1 + k)) := by
  have hat : atBlockLine indent c = true := by
    obtain ⟨ch, line, rfl⟩ := List.exists_cons_of_ne_nil hline.nonempty
    rw [atBlockLine, hcolumn, hrest, beq_self_eq_true]
    rfl
  have hinside : ∀ ch ∈ line, (!isBreak ch) = true := fun ch hch => by rw [hline.isLine ch hch]; rfl
  have hends : ∀ ch ∈ ('\n' :: (List.replicate k ' ' ++ tail)).head?, (!isBreak ch) = false := by
    rintro _ ⟨⟩
    rfl
  have htake : (c.takeWhile fun ch => !isBreak ch) = line := Cursor.takeWhile_eq hrest hinside hends
  have hskip : (c.skipWhile fun ch => !isBreak ch) = c.skip line.length :=
    Cursor.skipWhile_eq hrest hinside hends
  have hbehind := Cursor.rest_skip_append hrest
  have hnext : (c.skip line.length).next.rest = List.replicate k ' ' ++ tail := Cursor.rest_next_eq hbehind
  have hzero : (c.skip line.length).next.column = 0 := by
    have hfirst := (@Cursor.skip_line c line (List.replicate k ' ' ++ tail) 0 hrest).2.1
    rwa [Nat.add_zero, Cursor.skip_add] at hfirst
  have hinner := innerBreaks_line hk hzero hnext htail
    (Nat.succ_pos (c.skip line.length).next.rest.length)
  have hplace : (c.skip line.length).next.skip k = c.skip (line.length + 1 + k) := by
    rw [Cursor.skip_add, Cursor.skip_add]
    rfl
  rw [blockLines, hat, if_pos rfl, htake, hskip]
  dsimp only
  rw [Cursor.lineBreak?_newline hbehind]
  dsimp only
  rw [hinner, hplace]
  rfl

/-- The lines of a block text, up to a line that is indented less. -/
theorem blockLines_eq {d : Nat} (hd : d < indent) (htail : StartsToken tail)
    {line : List Char} {lines : List (List Char)} (hlines : ∀ l ∈ line :: lines, IsBlockLine l)
    (hcolumn : c.column = indent)
    (hrest : c.rest = line ++ (blockRest indent lines ++ '\n' :: (List.replicate d ' ' ++ tail)))
    {fuel : Nat} (hfuel : lines.length < fuel) (read : List (List Char)) (lineEnd : List Char) :
    blockLines false .clip indent fuel read [] lineEnd c =
      (read.reverse.flatten ++ (line :: lines).flatMap (· ++ ['\n']),
        c.skip (line.length + (blockRest indent lines).length + 1 + d)) := by
  induction lines generalizing line c fuel read lineEnd with
  | nil =>
    obtain ⟨fuel, rfl⟩ := Nat.exists_eq_add_of_le' (Nat.one_le_of_lt hfuel)
    have hline := hlines line List.mem_cons_self
    have hbelow := (Cursor.skip_line hrest).2.1
    have hends : atBlockLine indent (c.skip (line.length + 1 + d)) = false := by
      rw [atBlockLine, hbelow, beq_eq_false_iff_ne.mpr (Nat.ne_of_lt hd), Bool.false_and]
    rw [line_of_blockLines hline hrest (startsToken_head htail) (Nat.le_of_lt hd) hcolumn, hends,
      if_neg Bool.false_ne_true]
    simp [blockRest]
  | cons next lines ih =>
    obtain ⟨fuel, rfl⟩ := Nat.exists_eq_add_of_le' (Nat.one_le_of_lt hfuel)
    obtain ⟨hline, hmore⟩ := List.forall_mem_cons.mp hlines
    have hnext := hmore next List.mem_cons_self
    rw [blockRest_cons, List.cons_append, List.append_assoc, List.append_assoc] at hrest
    obtain ⟨hbehind, hbelow, -⟩ := Cursor.skip_line hrest
    have hgoes : atBlockLine indent (c.skip (line.length + 1 + indent)) = true := by
      obtain ⟨ch, next, rfl⟩ := List.exists_cons_of_ne_nil hnext.nonempty
      rw [atBlockLine, hbelow, hbehind, beq_self_eq_true]
      rfl
    rw [line_of_blockLines hline hrest hnext.head (Nat.le_refl _) hcolumn, hgoes, if_pos rfl,
      ih hmore hbelow hbehind (by rw [List.length_cons] at hfuel; omega), ← Cursor.skip_add]
    refine Prod.ext ?_ (congrArg (fun n => c.skip n) ?_)
    · simp
    · rw [blockRest_cons, List.length_cons, List.length_append, List.length_append,
        List.length_replicate]
      omega

/-- The spaces in front of the first line give the indentation. -/
theorem leadingBreaks_spaces {k fuel : Nat} (hrest : c.rest = List.replicate k ' ' ++ tail)
    (htail : ∀ ch ∈ tail.head?, ch ≠ ' ' ∧ isBreak ch = false) (hfuel : k < fuel) :
    leadingBreaks fuel [] c.column c = ([], c.column + k, c.skip k) := by
  induction k generalizing c fuel with
  | zero =>
    obtain ⟨fuel, rfl⟩ := Nat.exists_eq_add_of_le' hfuel
    have hhead : ∀ ch ∈ c.rest.head?, ch ≠ ' ' ∧ isBreak ch = false := by rwa [hrest]
    have hpeek : (c.peek == some ' ') = false := beq_eq_false_iff_ne.mpr fun hspace =>
      (hhead ' ' hspace).1 rfl
    rw [leadingBreaks, Cursor.lineBreak?_eq_none fun ch hch => (hhead ch hch).2]
    dsimp only
    rw [hpeek, if_neg Bool.false_ne_true]
    rfl
  | succ k ih =>
    obtain ⟨fuel, rfl⟩ := Nat.exists_eq_add_of_le' (Nat.one_le_of_lt hfuel)
    rw [List.replicate_succ, List.cons_append] at hrest
    have hbreak : c.lineBreak? = none := Cursor.lineBreak?_eq_none fun ch hch => by
      rw [hrest] at hch
      obtain rfl := Option.some.inj hch
      rfl
    have hpeek : (c.peek == some ' ') = true := by
      rw [Cursor.peek, hrest]
      rfl
    have hnext : c.next.rest = List.replicate k ' ' ++ tail := Cursor.rest_next_eq hrest
    have hcolumn : c.next.column = c.column + 1 := Cursor.column_next hrest rfl (by decide)
    have hmax : max c.column c.next.column = c.next.column := Nat.max_eq_right (by omega)
    rw [leadingBreaks, hbreak]
    dsimp only
    rw [hpeek, if_pos rfl, hmax, ih hnext (by omega), hcolumn, Nat.add_right_comm]
    rfl

/-- A sign with nothing behind it has no indicators. -/
theorem readHeader_newline (h : c.rest = '\n' :: tail) : readHeader c = .ok ({}, c.next) := by
  have hpeek : c.peek = some '\n' := Cursor.peek_eq h
  have hindicators : readIndicators c = .ok ({}, c) := by
    rw [readIndicators, hpeek]
    show (if (none == some 0 || !endsField c.peek) = true then _ else _) = _
    rw [hpeek]
    rfl
  have hspaces : c.skipSpaces.skipComment = c :=
    Cursor.skipComment_skipSpaces (n := 0) h (by rintro _ ⟨⟩; decide)
  have hline : skipLine? c = some c.next := by
    rw [skipLine?, hspaces, hpeek, Cursor.skipBreak, Cursor.lineBreak?_newline h]
    rfl
  rw [readHeader, hindicators]
  rw [Except.ok_bind]
  dsimp only
  rw [hline]

/-- A block text with its sign. -/
theorem readBlock_eq {d surroundings : Nat} (hindent : 0 < indent) (hsurroundings : surroundings ≤ indent)
    (hd : d < indent) (htail : StartsToken tail) {sign : Char} {line : List Char}
    {lines : List (List Char)} (hlines : ∀ l ∈ line :: lines, IsBlockLine l)
    (hrest : c.rest = sign :: '\n' :: (List.replicate indent ' ' ++
      (line ++ (blockRest indent lines ++ '\n' :: (List.replicate d ' ' ++ tail))))) :
    readBlock false surroundings c =
      .ok (String.ofList ((line :: lines).flatMap (· ++ ['\n'])),
        c.skip (2 + indent + line.length + (blockRest indent lines).length + 1 + d)) := by
  have hhead := @IsBlockLine.head line
    (blockRest indent lines ++ '\n' :: (List.replicate d ' ' ++ tail)) (hlines line List.mem_cons_self)
  have hsign : c.next.rest = _ := Cursor.rest_next_eq hrest
  have hbelow : c.next.next.rest = _ := Cursor.rest_next_eq hsign
  have hzero : c.next.next.column = 0 := by
    have hfirst := (@Cursor.skip_line c.next [] _ 0 hsign).2.1
    exact hfirst
  have hleading : leadingBreaks (c.next.next.rest.length + 1) [] 0 c.next.next =
      ([], indent, c.next.next.skip indent) := by
    have hspaces := @leadingBreaks_spaces _ _ _ (c.next.next.rest.length + 1) hbelow hhead (by
      rw [hbelow, List.length_append, List.length_replicate]
      omega)
    rwa [hzero, Nat.zero_add] at hspaces
  have hmax : max (max surroundings 1) indent = indent := Nat.max_eq_right (Nat.max_le.mpr ⟨hsurroundings, hindent⟩)
  have hline : (c.next.next.skip indent).rest =
      line ++ (blockRest indent lines ++ '\n' :: (List.replicate d ' ' ++ tail)) := by
    have hbehind := Cursor.rest_skip_append hbelow
    rwa [List.length_replicate] at hbehind
  have hcolumn : (c.next.next.skip indent).column = indent := by
    rw [Cursor.column_skip_spaces hbelow, hzero, Nat.zero_add]
  have hfuel : lines.length < (c.next.next.skip indent).rest.length + 1 := by
    have hrest := length_le_blockRest indent lines
    rw [hline, List.length_append, List.length_append]
    omega
  refine Except.bind_eq_ok_iff.mpr ⟨_, readHeader_newline hsign, ?_⟩
  dsimp only
  rw [hleading]
  dsimp only
  rw [hmax, blockLines_eq hd htail hlines hcolumn hline hfuel]
  dsimp only
  refine congrArg Except.ok (Prod.ext rfl ?_)
  show (c.next.next.skip indent).skip _ = _
  rw [← Cursor.skip_succ, ← Cursor.skip_succ, ← Cursor.skip_add]
  exact congrArg (fun n => c.skip n) (by omega)

/-! ## The tag of bytes -/

/-- The name of a tag up to a space. -/
theorem tagBody_eq {name : List Char} (hname : ∀ ch ∈ name, isTagChar ch = true ∧ ch ≠ '%')
    (hrest : c.rest = name ++ ' ' :: tail) {fuel : Nat} (hfuel : name.length < fuel)
    (read : List (List Char)) :
    tagBody fuel read c = some (read.reverse.flatten ++ name, c.skip name.length) := by
  induction name generalizing c fuel read with
  | nil =>
    obtain ⟨fuel, rfl⟩ := Nat.exists_eq_add_of_le' (Nat.one_le_of_lt hfuel)
    have hpeek : c.peek = some ' ' := Cursor.peek_eq hrest
    rw [tagBody, hpeek, List.append_nil]
    rfl
  | cons ch name ih =>
    obtain ⟨fuel, rfl⟩ := Nat.exists_eq_add_of_le' (Nat.one_le_of_lt hfuel)
    rw [List.forall_mem_cons] at hname
    have hpeek : c.peek = some ch := Cursor.peek_eq hrest
    have hnext : c.next.rest = name ++ ' ' :: tail := Cursor.rest_next_eq hrest
    rw [List.length_cons] at hfuel
    rw [tagBody, hpeek]
    dsimp only
    rw [if_neg hname.1.2, if_pos hname.1.1, ih hname.2 hnext (by omega)]
    simp [Cursor.skip_succ]

/-- The tag of bytes, as it is written. -/
def binaryWord : List Char := "!!binary".toList

theorem head?_binaryWord (more : List Char) : (binaryWord ++ more).head? = some '!' := by
  have hword : binaryWord = '!' :: "!binary".toList := by decide
  rw [hword]
  rfl

theorem startsToken_binaryWord (more : List Char) : StartsToken (binaryWord ++ more) := by
  intro ch hch
  rw [head?_binaryWord] at hch
  obtain rfl := Option.some.inj hch
  decide

/-- The tag of bytes, as it is read. -/
def binaryTag : TagToken := { handle := some "!!", suffix := "binary" }

theorem readTag_binary (h : c.rest = binaryWord ++ ' ' :: tail) :
    readTag c = .ok (binaryTag, c.skip 8) := by
  have hnext : c.next.rest = '!' :: ("binary".toList ++ ' ' :: tail) := Cursor.rest_next_eq h
  have hname : (c.skip 2).rest = "binary".toList ++ ' ' :: tail := by
    rw [Cursor.rest_skip, h]
    rfl
  have hend : (c.skip 8).peek = some ' ' := by
    rw [Cursor.peek, Cursor.rest_skip, h]
    rfl
  have hpeekAt : c.peekAt 1 = some '!' := Cursor.peekAt_one h
  have hmark : hasSecondMark c.next.rest = true := by
    rw [hnext]
    rfl
  have hhandle : readHandle c = .ok ("!!", c.skip 2) := by
    have hpeek : c.peek = some '!' := Cursor.peek_eq h
    have hbehind : c.next.skipWhile isNameChar = c.next := by
      rw [Cursor.skipWhile, hnext]
      rfl
    have hnone : c.next.takeWhile isNameChar = [] := by
      rw [Cursor.takeWhile, hnext]
      rfl
    have hsecond : c.next.peek = some '!' := Cursor.peek_eq hnext
    rw [readHandle, hpeek, hpeekAt, hbehind, hnone]
    dsimp only
    rw [hsecond]
    rfl
  have htext : readTagText (c.skip 2) = .ok ("binary", c.skip 8) := by
    have hpeek : (c.skip 2).peek = some 'b' := Cursor.peek_eq hname
    have hfuel : "binary".toList.length < (c.skip 2).rest.length + 1 := by
      rw [hname, List.length_append]
      omega
    rw [readTagText, hpeek, tagBody_eq (by decide) hname hfuel, ← Cursor.skip_add]
    rfl
  rw [readTag, hpeekAt, hmark]
  show readHandle c >>= _ = _
  refine Except.bind_eq_ok_iff.mpr ⟨_, hhandle, Except.bind_eq_ok_iff.mpr ⟨_, htext, ?_⟩⟩
  show (if endsField (c.skip 8).peek = true then _ else _) = _
  rw [hend]
  rfl

namespace Lexer

variable {m : Lexer} {indents : List Nat} {ts : List Token} {column : Nat} {allowed : Bool}

/-- A block text with the line behind it. -/
theorem Arrives.exists_block {d : Nat} {line : List Char} {lines : List (List Char)}
    (h : m.Arrives indents ts column allowed ('|' :: '\n' :: (List.replicate indent ' ' ++
      (line ++ (blockRest indent lines ++ '\n' :: (List.replicate d ' ' ++ tail))))))
    (hlines : ∀ l ∈ line :: lines, IsBlockLine l) (hindent : 0 < indent)
    (hindents : ∀ i ∈ indents.head?, i < indent) (hd : d < indent) (htail : StartsToken tail) :
    ∃ k : Lexer, Reaches 1 m k ∧ k.Arrives (kept indents d)
      (ts ++ [.scalar false (String.ofList ((line :: lines).flatMap (· ++ ['\n'])))] ++
        closing indents d) d true tail := by
  obtain ⟨r, hr, hstep⟩ := h
  have hnext : r.nextIndent ≤ indent := by
    rw [nextIndent, hr.indents]
    cases indents with
    | nil => exact Nat.zero_le _
    | cons i indents => exact hindents i rfl
  have hread := readBlock_eq hindent hnext hd htail hlines hr.rest
  have hsign : r.dispatch = r.block false := by
    rw [hr.dispatch_eq, tokenAt, hr.inFlow]
    rfl
  have hall : r.cursor.rest = ('|' :: '\n' :: (List.replicate indent ' ' ++
      (line ++ blockRest indent lines))) ++ '\n' :: (List.replicate d ' ' ++ tail) := by
    rw [hr.rest]
    simp only [List.cons_append, List.append_assoc]
  obtain ⟨hbehind, hcolumn, -⟩ := Cursor.skip_line hall
  have hlength : ('|' :: '\n' :: (List.replicate indent ' ' ++ (line ++ blockRest indent lines))).length =
      2 + indent + line.length + (blockRest indent lines).length := by
    simp only [List.length_cons, List.length_append, List.length_replicate]
    omega
  rw [hlength] at hbehind hcolumn
  generalize r.cursor.skip (2 + indent + line.length + (blockRest indent lines).length + 1 + d) = c
    at hread hbehind hcolumn
  generalize String.ofList ((line :: lines).flatMap (· ++ ['\n'])) = text at hread ⊢
  have hmoved := (hr.toOutside.move c true).push (.scalar false text)
  refine ⟨_, .single (hstep.trans ?_) hmoved.notDone, ?_⟩
  · rw [hsign]
    exact Except.bind_eq_ok_iff.mpr ⟨_, hr.toOutside.dropPending,
      Except.bind_eq_ok_iff.mpr ⟨(text, c), hread, rfl⟩⟩
  · generalize hk : ({ r with cursor := c, keyAllowed := true, pending := [] }.push
      (.scalar false text) : Lexer) = k at hmoved
    have hplace : k.cursor = c := hk ▸ rfl
    have hskip : k.skipToToken (k.cursor.rest.length + 1) =
        { k with cursor := c, keyAllowed := true } := by
      rw [skipToToken_spaces (n := 0) (hplace ▸ hbehind : k.cursor.rest = tail) htail
        (Nat.succ_pos _), ← hk]
      rfl
    have harrives := hmoved.arrives hskip (Nat.le_of_eq (congrArg _ hplace)) fun _ key hkey => by
      rw [← hk] at hkey
      cases hkey
    rwa [hbehind, hcolumn] at harrives

/-- The tag of bytes with a space behind it. -/
theorem Arrives.exists_tag
    (h : m.Arrives indents ts column allowed (binaryWord ++ ' ' :: tail))
    (hindents : ∀ i ∈ indents.head?, i ≤ column) (hoptional : allowed = true → indents.head? ≠ some column)
    (htail : StartsToken tail) :
    ∃ k : Lexer, Reaches 1 m k ∧
      k.Arrives indents (ts ++ [.tag binaryTag]) (column + 9) false tail := by
  obtain ⟨r, hr, hstep⟩ := h
  obtain ⟨l, hslot, hl, hcursor⟩ := hr.exists_leaveSlot hoptional
  have hread := readTag_binary hr.rest
  have hsign : r.dispatch = r.tag := hr.dispatch_eq
  have hline : IsLine binaryWord := by
    unfold IsLine
    decide
  have hcolumn : (r.cursor.skip 8).column = column + 8 := by
    rw [← hr.column]
    exact Cursor.column_skip hr.rest hline (by decide)
  have hforward : l.cursor.line ≤ (r.cursor.skip 8).line := by
    rw [hcursor]
    exact Cursor.line_le_skip 8 r.cursor
  have hmoved := (hl.forward hforward false).push (.tag binaryTag)
  refine ⟨_, .single (hstep.trans ?_) hmoved.notDone, ?_⟩
  · rw [hsign]
    refine Except.bind_eq_ok_iff.mpr ⟨l, hslot, Except.bind_eq_ok_iff.mpr
      ⟨(binaryTag, r.cursor.skip 8), ?_, rfl⟩⟩
    rw [hcursor]
    exact hread
  · have hplace : (r.cursor.skip 8).rest = List.replicate 1 ' ' ++ tail :=
      Cursor.rest_skip_append hr.rest
    have harrives := hmoved.arrives_spaces (n := 1) nofun hplace htail fun i hi => by
      have hle := hindents i hi
      show i ≤ (r.cursor.skip 8).column + 1
      omega
    have hsame : ({ l with keyAllowed := false, cursor := r.cursor.skip 8 }.push (.tag binaryTag)).cursor.column
        + 1 = column + 9 := congrArg (· + 1) hcolumn
    rwa [hsame] at harrives

/-- Bytes with their tag: the lines of a block text. -/
def taggedBlock (indent : Nat) (line : List Char) (lines : List (List Char)) : List Char :=
  binaryWord ++
    ' ' :: '|' :: '\n' :: (List.replicate indent ' ' ++ (line ++ blockRest indent lines))

theorem taggedBlock_append (indent : Nat) (line : List Char) (lines : List (List Char))
    (more : List Char) : taggedBlock indent line lines ++ more =
      binaryWord ++ ' ' :: '|' :: '\n' :: (List.replicate indent ' ' ++
        (line ++ (blockRest indent lines ++ more))) := by
  simp only [taggedBlock, List.append_assoc, List.cons_append]

theorem startsToken_taggedBlock (indent : Nat) (line : List Char) (lines : List (List Char))
    (more : List Char) : StartsToken (taggedBlock indent line lines ++ more) := by
  rw [taggedBlock_append]
  exact startsToken_binaryWord _

theorem length_taggedBlock (indent : Nat) (line : List Char) (lines : List (List Char)) :
    2 ≤ (taggedBlock indent line lines).length := by
  rw [taggedBlock, List.length_append]
  exact Nat.le_add_right_of_le (by decide)

theorem permitted_taggedBlock {line : List Char} {lines : List (List Char)}
    (h : ∀ l ∈ line :: lines, ∀ c ∈ l, isPermitted c = true) :
    ∀ c ∈ taggedBlock indent line lines, isPermitted c = true := by
  rw [List.forall_mem_cons] at h
  refine List.forall_mem_append.mpr ⟨by decide, List.forall_mem_cons.mpr ⟨rfl,
    List.forall_mem_cons.mpr ⟨rfl, List.forall_mem_cons.mpr ⟨rfl, List.forall_mem_append.mpr
      ⟨isPermitted_replicate, List.forall_mem_append.mpr ⟨h.1, ?_⟩⟩⟩⟩⟩⟩
  exact List.forall_mem_flatMap.mpr fun l hl => isPermitted_line (h.2 l hl)

/-- Such bytes with the line behind them. -/
theorem Arrives.exists_taggedBlock {d : Nat} {line : List Char} {lines : List (List Char)}
    (h : m.Arrives indents ts column allowed
      (taggedBlock indent line lines ++ '\n' :: (List.replicate d ' ' ++ tail)))
    (hlines : ∀ l ∈ line :: lines, IsBlockLine l) (hindent : 0 < indent)
    (hindents : ∀ i ∈ indents.head?, i < indent ∧ i ≤ column)
    (hoptional : allowed = true → indents.head? ≠ some column) (hd : d < indent)
    (htail : StartsToken tail) :
    ∃ k : Lexer, Reaches 2 m k ∧ k.Arrives (kept indents d)
      (ts ++ [.tag binaryTag, .scalar false (String.ofList ((line :: lines).flatMap (· ++ ['\n'])))] ++
        closing indents d) d true tail := by
  rw [taggedBlock_append] at h
  have hsign : StartsToken ('|' :: '\n' :: (List.replicate indent ' ' ++
      (line ++ (blockRest indent lines ++ '\n' :: (List.replicate d ' ' ++ tail))))) := by
    rintro _ ⟨⟩
    decide
  obtain ⟨k, hfirst, hk⟩ := h.exists_tag (fun i hi => (hindents i hi).2) hoptional hsign
  obtain ⟨j, hsecond, hj⟩ := hk.exists_block hlines hindent (fun i hi => (hindents i hi).1) hd htail
  refine ⟨j, hfirst.trans hsecond, ?_⟩
  rwa [List.append_assoc ts [_] [_]] at hj

end Lexer

/-- The tag of bytes in front of a scalar on its line. -/
theorem Lexer.LexesScalar.taggedNode {n : Nat} {cs : List Char} {plain : Bool} {text : String}
    (h : LexesScalar n cs plain text) (hstart : StartsToken cs) (hne : cs ≠ []) (compact : Bool) :
    LexesNode compact n (' ' :: (binaryWord ++ ' ' :: cs)) [.tag binaryTag, .scalar plain text] := by
  intro m indents before column d tail hindents hcolumn hcompact hd htail hm
  have hrest : m.cursor.rest = List.replicate 1 ' ' ++
      (binaryWord ++ ' ' :: (cs ++ '\n' :: (List.replicate d ' ' ++ tail))) := by
    rw [hm.rest]
    simp only [List.append_assoc, List.cons_append]
    rfl
  have hle : ∀ i ∈ indents.head?, i ≤ column + 1 := by
    rw [hindents]
    rintro i ⟨⟩
    omega
  have harrives := hm.toOutside.arrives_spaces (fun _ => hm.pending) hrest
    (startsToken_binaryWord _) (by rwa [hm.column])
  rw [hm.column, hm.keyAllowed] at harrives
  obtain ⟨k, hfirst, hk⟩ := harrives.exists_tag hle
    (fun _ => by rw [hindents, ne_eq, Option.some.injEq]; omega) (startsToken_append hstart hne)
  obtain ⟨j, hsecond, hj⟩ := hk.exists_scalar h hindents (by omega) hd htail
  refine ⟨j, (hfirst.trans hsecond).mono ?_, ?_⟩
  · rw [List.length_cons, List.length_append, List.length_cons]
    omega
  · rwa [List.append_assoc before [_] [_]] at hj

/-! ## Nodes -/

/-- The tag of bytes says what the text behind it is. -/
theorem Parser.yieldsKey_binary {text : String} {content : List UInt8}
    (h : Scalar.binary text = .ok content) :
    YieldsKey [.tag binaryTag, .scalar false text] (.bytes content) where
  begins := ⟨_, _, rfl, rfl⟩
  isKey := rfl
  parses flat fuel p rest hfuel hp := by
    obtain ⟨fuel, rfl⟩ := Nat.exists_eq_add_of_le' (Nat.le_trans (by decide : 2 ≤ 4 * 2 + 4) hfuel)
    refine ⟨.binary, text, ?_, rfl, ?_⟩
    · have hfull : p.fullTag binaryTag = .ok (Tag.schemaText ++ "binary") := by
        rw [fullTag]
        dsimp only [binaryTag]
        rw [hp]
      have hprops : p.properties (.tag binaryTag :: .scalar false text :: rest) =
          .ok ({ tag := some (Tag.schemaText ++ "binary") }, .scalar false text :: rest) := by
        rw [properties, hfull]
        · rfl
        · rintro _ _ ⟨⟩
      rw [List.cons_append, List.singleton_append, node]
      · refine Except.bind_eq_ok_iff.mpr ⟨_, hprops, ?_⟩
        rfl
      · rintro _ _ ⟨⟩
    · rw [Scalar.value, h]
      rfl

end DocSchema.Yaml
