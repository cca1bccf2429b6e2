import DocSchema.Proofs.Except
import DocSchema.Proofs.Yaml.Flow
import DocSchema.Proofs.Yaml.Plain
import DocSchema.Proofs.Yaml.Quoted

/-!
# Scalars and keys between brackets

A text between double quotes and a word are one token each. A text between double quotes with a
colon behind it is a key, as long as both are on one line and not too far from each other: the
colon finds the slot that was left in front of the text.

## Main results

* `lexes_quoted`, `lexes_word`: scalars
* `lexesEntries_member`: a key with its value
-/

namespace DocSchema.Yaml

-- Decisions about the members of a list go through the list and not through all characters.
attribute [local instance (2000)] List.decidableBAll

namespace Lexer

variable {l : Lexer}

theorem Loose.push (h : l.Loose) (t : Token) : (l.push t).Loose :=
  ⟨h.toNumbered.push t, h.indents, h.notDone, h.optional⟩

/-- Where a lexer stands, and whether a key may start there, has no part in what is loose. -/
theorem Loose.move (h : l.Loose) (c : Cursor) (allowed : Bool) :
    { l with keyAllowed := allowed, cursor := c }.Loose :=
  ⟨⟨h.slot_lt, h.key_lt⟩, h.indents, h.notDone, h.optional⟩

theorem quoted_eq {m : Lexer} {double : Bool} {text : String} {c : Cursor}
    (hslot : l.leaveSlot = .ok m) (hread : readQuoted double m.cursor = .ok (text, c)) :
    l.quoted double = .ok ({ m with keyAllowed := false, cursor := c }.push (.scalar false text)) :=
  Except.bind_eq_ok_iff.mpr ⟨m, hslot, Except.bind_eq_ok_iff.mpr ⟨(text, c), hread, rfl⟩⟩

theorem plain_eq {m : Lexer} {text : String} {c : Cursor} {ended : Bool}
    (hslot : l.leaveSlot = .ok m)
    (hread : readPlain m.inFlow m.nextIndent m.cursor = (text, c, ended)) :
    l.plain = .ok ({ m with keyAllowed := ended, cursor := c }.push (.scalar true text)) := by
  refine Except.bind_eq_ok_iff.mpr ⟨m, hslot, ?_⟩
  dsimp only
  rw [hread]
  rfl

/-! ## Texts between double quotes -/

/-- A text between double quotes is one token. -/
theorem Loose.exists_quoted (h : l.Loose) {cs read tail : List Char} (hspells : Spells cs read)
    (hrest : l.cursor.rest = '"' :: (cs ++ '"' :: tail)) :
    ∃ m, l.quoted true = .ok m ∧ m.Loose ∧ m.depth = l.depth ∧
      m.emitted = l.emitted ++ [.scalar false (String.ofList read)] ∧ m.cursor.rest = tail := by
  obtain ⟨m, hslot, hm, hemitted, hcursor, hdepth⟩ := h.exists_leaveSlot
  have hread := readQuoted_of_spells hspells (hcursor ▸ hrest : m.cursor.rest = _)
  refine ⟨_, ?_, (hm.move (m.cursor.skip (cs.length + 2)) false).push
    (.scalar false (String.ofList read)), hdepth, ?_, ?_⟩
  · exact quoted_eq hslot hread
  · rw [emitted_push]
    exact congrArg (· ++ _) hemitted
  · show (m.cursor.skip (cs.length + 2)).rest = tail
    have hchars : m.cursor.rest = ('"' :: (cs ++ ['"'])) ++ tail := by
      rw [hcursor, hrest, List.cons_append, List.append_assoc, List.singleton_append]
    have hlength : cs.length + 2 = ('"' :: (cs ++ ['"'])).length := by
      rw [List.length_cons, List.length_append, List.length_singleton]
    rw [hlength, Cursor.rest_skip_append hchars]

end Lexer

theorem startsToken_quote (cs : List Char) : StartsToken ('"' :: cs) := by
  intro c hc
  obtain rfl : '"' = c := Option.some.inj hc
  decide

theorem lexes_quoted {cs read : List Char} (h : Spells cs read) :
    Lexes ('"' :: (cs ++ ['"'])) [.scalar false (String.ofList read)] := by
  intro l hl _ before after tail hbefore hafter _ hrest
  rw [List.cons_append, List.append_assoc, List.singleton_append] at hrest
  obtain ⟨m, hstep, hm, hcursor, hdepth, hemitted, -⟩ :=
    hl.exists_token hbefore (startsToken_quote _) hrest
  obtain ⟨r, hquoted, hr, hdepth', hemitted', hcursor'⟩ := hm.exists_quoted h hcursor
  have hreaches : Lexer.Reaches 1 l r := .single (hstep.trans hquoted) hr.notDone
  refine ⟨r, after, hreaches.mono ?_, hr, hdepth'.trans hdepth, ?_, hafter, hcursor'⟩
  · rw [List.length_cons]
    omega
  · rw [hemitted', hemitted]

/-! ## Words -/

/-- A word starts with a letter or a digit, or with a minus sign and a digit behind it. -/
def StartsWord (cs : List Char) : Prop :=
  ∃ ch tail, cs = ch :: tail ∧
    (ch.isAlphanum = true ∨ ch = '-' ∧ ∃ d rest, tail = d :: rest ∧ d.isDigit = true)

theorem StartsWord.append {cs : List Char} (h : StartsWord cs) (more : List Char) :
    StartsWord (cs ++ more) := by
  obtain ⟨ch, tail, rfl, hletter | ⟨rfl, d, rest, rfl, hd⟩⟩ := h
  · exact ⟨ch, tail ++ more, rfl, .inl hletter⟩
  · exact ⟨'-', d :: rest ++ more, rfl, .inr ⟨rfl, d, rest ++ more, rfl, hd⟩⟩

theorem StartsWord.exists_isWordChar {cs : List Char} (h : StartsWord cs) :
    ∃ ch tail, cs = ch :: tail ∧ isWordChar ch = true := by
  obtain ⟨ch, tail, rfl, hletter | ⟨rfl, -⟩⟩ := h
  · exact ⟨ch, tail, rfl, by rw [isWordChar, hletter]; rfl⟩
  · exact ⟨'-', tail, rfl, rfl⟩

theorem StartsWord.startsToken {cs : List Char} (h : StartsWord cs) : StartsToken cs := by
  obtain ⟨ch, tail, rfl, hch⟩ := h.exists_isWordChar
  intro c hc
  obtain rfl : ch = c := Option.some.inj hc
  exact ⟨isWordChar_ne hch rfl, isWordChar_ne hch rfl, isBreak_of_isWordChar hch⟩

/-- No letter or digit has a meaning of its own. -/
theorem beq_eq_false_of_isAlphanum {ch : Char} (h : ch.isAlphanum = true) {d : Char}
    (hd : d.isAlphanum = false) : (ch == d) = false := by
  rw [beq_eq_false_iff_ne]
  rintro rfl
  rw [h] at hd
  cases hd

theorem startsPlain_of_isAlphanum {ch : Char} (h : ch.isAlphanum = true) {c : Cursor}
    {tail : List Char} (hrest : c.rest = ch :: tail) (inFlow : Bool) :
    startsPlain inFlow c = true := by
  have hword : isWordChar ch = true := by
    rw [isWordChar, h]
    rfl
  have hnone : ∀ d ∈ indicators, d.isAlphanum = false := by decide
  have hindicator : indicators.contains ch = false := by
    rw [List.contains_eq_mem, decide_eq_false_iff_not]
    intro hmem
    rw [hnone ch hmem] at h
    cases h
  rw [startsPlain, Cursor.peek, hrest, List.head?_cons]
  dsimp only
  rw [isSpacing_of_isWordChar hword, hindicator]
  rfl

theorem Lexer.tokenAt_of_isAlphanum {l : Lexer} {ch : Char} (h : ch.isAlphanum = true)
    {tail : List Char} (hrest : l.cursor.rest = ch :: tail) : l.tokenAt ch = l.plain := by
  have hne {d : Char} (hd : d.isAlphanum = false) := beq_eq_false_of_isAlphanum h hd
  simp only [tokenAt, hne (d := '%') rfl, hne (d := '-') rfl, hne (d := '.') rfl,
    hne (d := '[') rfl, hne (d := '\x7b') rfl, hne (d := ']') rfl, hne (d := '\x7d') rfl,
    hne (d := ',') rfl, hne (d := '?') rfl, hne (d := ':') rfl, hne (d := '*') rfl,
    hne (d := '&') rfl, hne (d := '!') rfl, hne (d := '|') rfl, hne (d := '>') rfl,
    hne (d := '\'') rfl, hne (d := '"') rfl, Bool.false_and, if_neg Bool.false_ne_true,
    startsPlain_of_isAlphanum h hrest, if_pos]

theorem Lexer.tokenAt_of_minus {l : Lexer} {d : Char} (hd : d.isDigit = true) {tail : List Char}
    (hrest : l.cursor.rest = '-' :: d :: tail) : l.tokenAt '-' = l.plain := by
  have hword := isWordChar_of_isDigit hd
  have hminus : d ≠ '-' := by
    rintro rfl
    cases hd
  have hseparator : l.cursor.atSeparator = false := by
    rw [Cursor.atSeparator, hrest]
    split
    · next heq => exact absurd (List.cons.inj (List.cons.inj heq).2).1 hminus
    · next heq => cases heq
    · rfl
  have hends : endsWord (l.cursor.peekAt 1) = false := by
    rw [Cursor.peekAt_one hrest]
    exact isSpacing_of_isWordChar hword
  have hstarts : startsPlain l.inFlow l.cursor = true := by
    rw [startsPlain, Cursor.peek, hrest, List.head?_cons]
    dsimp only
    rw [hends]
    rfl
  rw [tokenAt, hseparator, hends, hstarts, Bool.and_false]
  rfl

theorem Lexer.tokenAt_of_startsWord {l : Lexer} {ch : Char} {tail : List Char}
    (h : StartsWord (ch :: tail)) (hrest : l.cursor.rest = ch :: tail) :
    l.tokenAt ch = l.plain := by
  obtain ⟨_, _, heq, hletter | ⟨rfl, d, rest, rfl, hd⟩⟩ := h
  · cases heq
    exact tokenAt_of_isAlphanum hletter hrest
  · cases heq
    exact tokenAt_of_minus hd hrest

theorem lexes_word {cs : List Char} (hstart : StartsWord cs)
    (hcs : ∀ c ∈ cs, isWordChar c = true) : Lexes cs [.scalar true (String.ofList cs)] := by
  intro l hl hflow before after tail hbefore hafter htail hrest
  obtain ⟨ch, more, rfl, -⟩ := hstart.exists_isWordChar
  have hbehind := hstart.append (after ++ tail)
  obtain ⟨m, hstep, hm, hcursor, hdepth, hemitted, -⟩ :=
    hl.exists_token hbefore hbehind.startsToken hrest
  rw [Lexer.tokenAt_of_startsWord hbehind hcursor] at hstep
  obtain ⟨s, hslot, hs, hemitted', hcursor', hdepth'⟩ := hm.exists_leaveSlot
  have hinFlow : s.inFlow = true := by
    rw [Lexer.inFlow, hdepth', hdepth, bne_iff_ne]
    exact hflow
  obtain ⟨c, ended, hread, hc⟩ := exists_readPlain_word (List.cons_ne_nil ch more) hcs hafter htail
    s.nextIndent (hcursor' ▸ hcursor : s.cursor.rest = _)
  rw [← hinFlow] at hread
  have hplain := Lexer.plain_eq hslot hread
  have hr := (hs.move c ended).push (.scalar true (String.ofList (ch :: more)))
  have hreaches : Lexer.Reaches 1 l _ := .single (hstep.trans hplain) hr.notDone
  refine ⟨_, [], hreaches.mono ?_, hr, hdepth'.trans hdepth, ?_, isGap_nil, hc⟩
  · rw [List.length_cons]
    omega
  · rw [Lexer.emitted_push]
    exact congrArg (· ++ _) (hemitted'.trans hemitted)

/-! ## Keys -/

namespace Lexer

variable {l : Lexer} {cs read spaces tail : List Char}

/-- Between brackets the lexer has read a token behind a slot, from whose place it is some characters
away on the same line. -/
structure WaitsInFlow (l : Lexer) (key : PendingKey) (ts : List Token) (t : Token)
    (distance : Nat) : Prop extends Loose l, BehindSlot l key.id ts t where
  inFlow : l.inFlow = true
  pending : ∃ more, l.pending = (l.depth, key) :: more
  line : key.line = l.cursor.line
  index : l.cursor.index = key.index + distance

/-- A text between double quotes may turn out to be a key where one is allowed. -/
theorem Loose.exists_waiting (h : l.Loose) (hflow : l.depth ≠ 0) (hallowed : l.keyAllowed = true)
    (hspells : Spells cs read) (hline : IsLine cs) {before : List Char} (hbefore : IsGap before)
    (hrest : l.cursor.rest = before ++ '"' :: (cs ++ '"' :: tail)) :
    ∃ m key, Reaches 1 l m ∧
      m.WaitsInFlow key l.emitted (.scalar false (String.ofList read)) (cs.length + 2) ∧
      m.depth = l.depth ∧ m.cursor.rest = tail := by
  have hinFlow : l.inFlow = true := bne_iff_ne.mpr hflow
  obtain ⟨c, allowed, hc, hsame, -, hstep⟩ :=
    h.exists_step hbefore (startsToken_quote _) hrest
  have hloose := h.settled c allowed
  obtain rfl : allowed = true := (hsame hinFlow).trans hallowed
  have hquoted := quoted_eq (hloose.leaveSlot_of_allowed rfl) (readQuoted_of_spells hspells hc)
  have hm := (hloose.withSlot.move (c.skip (cs.length + 2)) false).push
    (.scalar false (String.ofList read))
  have hslot := hloose.toNumbered.behindSlot false (c.skip (cs.length + 2))
    (.scalar false (String.ofList read))
  have hchars : c.rest = ('"' :: (cs ++ ['"'])) ++ tail := by
    rw [hc, List.cons_append, List.append_assoc, List.singleton_append]
  have hlength : ('"' :: (cs ++ ['"'])).length = cs.length + 2 := by
    rw [List.length_cons, List.length_append, List.length_singleton]
  have hquotedLine : IsLine ('"' :: (cs ++ ['"'])) :=
    isLine_cons.mpr ⟨rfl, isLine_append.mpr ⟨hline, isLine_cons.mpr ⟨rfl, isLine_nil⟩⟩⟩
  refine ⟨_, (l.settled c true).newKey, .single (hstep.trans hquoted) hm.notDone,
    ⟨hm, hslot.id_lt, hslot.read, hinFlow, ⟨_, rfl⟩, ?_, ?_⟩, rfl, ?_⟩
  · rw [← hlength]
    exact (Cursor.line_skip hchars hquotedLine).symm
  · rw [← hlength]
    exact Cursor.index_skip hchars
  · rw [← hlength]
    exact Cursor.rest_skip_append hchars

namespace WaitsInFlow

variable {key : PendingKey} {ts : List Token} {t : Token} {distance : Nat}

/-- Spaces lead no further away than they are long. -/
theorem settled (h : l.WaitsInFlow key ts t distance) (hspaces : IsLine spaces)
    (hrest : l.cursor.rest = spaces ++ tail) (hnear : distance + spaces.length ≤ 1024)
    (allowed : Bool) :
    (l.settled (l.cursor.skip spaces.length) allowed).WaitsInFlow key ts t
      (distance + spaces.length) where
  toLoose := h.toLoose.settled _ _
  id_lt := h.id_lt
  read := h.read
  inFlow := h.inFlow
  pending := by
    obtain ⟨more, hpending⟩ := h.pending
    have hfresh : isStale (l.cursor.skip spaces.length) key = false := by
      rw [isStale, Cursor.line_skip hrest hspaces, Cursor.index_skip hrest, h.line,
        bne_self_eq_false, Bool.false_or, decide_eq_false_iff_not, h.index]
      omega
    have hkept : (l.settled (l.cursor.skip spaces.length) allowed).pending =
        l.pending.filter fun entry => !isStale (l.cursor.skip spaces.length) entry.2 := rfl
    refine ⟨more.filter fun entry => !isStale (l.cursor.skip spaces.length) entry.2, ?_⟩
    rw [hkept, hpending, List.filter_cons, if_pos (by rw [hfresh]; rfl)]
    rfl
  line := h.line.trans (Cursor.line_skip hrest hspaces).symm
  index := by
    rw [Lexer.settled, Cursor.index_skip hrest, h.index, Nat.add_assoc]

theorem tokenAt_colon (h : l.WaitsInFlow key ts t distance) :
    l.tokenAt ':' = .ok ((l.confirm key).sign .value) := by
  obtain ⟨more, hpending⟩ := h.pending
  have hsign : l.tokenAt ':' = l.valueSign := by
    rw [tokenAt, h.inFlow]
    rfl
  rw [hsign, valueSign, hpending, Assoc.find?, if_pos (beq_self_eq_true _)]

theorem confirm (h : l.WaitsInFlow key ts t distance) : (l.confirm key).Loose where
  toNumbered := h.toBehindSlot.confirm
  indents := by
    rw [Lexer.confirm, h.inFlow]
    exact h.indents
  notDone := h.notDone
  optional := (h.toLoose.filter_pending fun entry => entry.1 != l.depth).optional

end WaitsInFlow

/-- A text between double quotes with a colon behind it is a key. -/
theorem Loose.exists_key (h : l.Loose) (hflow : l.depth ≠ 0) (hallowed : l.keyAllowed = true)
    (hspells : Spells cs read) (hline : IsLine cs) (hspaces : ∀ c ∈ spaces, c = ' ')
    (hlength : cs.length + 2 + spaces.length ≤ 1024) {before : List Char} (hbefore : IsGap before)
    (hrest : l.cursor.rest = before ++ '"' :: (cs ++ '"' :: (spaces ++ ':' :: tail))) :
    ∃ m, Reaches 2 l m ∧ m.Loose ∧ m.depth = l.depth ∧ m.cursor.rest = tail ∧
      m.emitted = l.emitted ++ [.key, .scalar false (String.ofList read), .value] := by
  obtain ⟨k, key, hfirst, hk, hdepth, hbehind⟩ :=
    h.exists_waiting hflow hallowed hspells hline hbefore hrest
  have hgap : IsGap spaces := fun c hc => hspaces c hc ▸ List.mem_cons_self
  have hspacesLine : IsLine spaces := fun c hc => hspaces c hc ▸ rfl
  have hcolon : StartsToken (':' :: tail) := by
    rintro c ⟨⟩
    decide
  obtain ⟨c, allowed, hc, -, hskip, hstep⟩ := hk.exists_step hgap hcolon hbehind
  obtain rfl := hskip hspacesLine
  have hsettled := hk.settled hspacesLine hbehind hlength allowed
  have hvalue := hstep.trans hsettled.tokenAt_colon
  refine ⟨_, hfirst.trans (.single hvalue (hsettled.confirm.sign .value).notDone),
    hsettled.confirm.sign .value, hdepth, Cursor.rest_next_eq hc, ?_⟩
  rw [hsettled.emitted_confirm, hsettled.inFlow]
  rfl

end Lexer

/-- A key with its value. -/
theorem lexesEntries_member {before cs read spaces between value after : List Char}
    {ts : List Token} (hbefore : IsGap before) (hspells : Spells cs read) (hline : IsLine cs)
    (hspaces : ∀ c ∈ spaces, c = ' ') (hlength : cs.length + 2 + spaces.length ≤ 1024)
    (hbetween : IsGap between) (hvalue : Lexes value ts) (hafter : IsGap after) :
    LexesEntries
      (before ++ ('"' :: (cs ++ ['"'])) ++ spaces ++ ':' :: (between ++ value ++ after))
      (.key :: .scalar false (String.ofList read) :: .value :: ts) := by
  intro l tail hl hflow hallowed htail hrest
  simp only [List.append_assoc, List.cons_append, List.nil_append] at hrest
  obtain ⟨m, hreach, hm, hdepth, hcursor, hemitted⟩ :=
    hl.exists_key hflow hallowed hspells hline hspaces hlength hbefore hrest
  obtain ⟨r, gap, hreach', hr, hdepth', hemitted', hgap, hcursor'⟩ :=
    hvalue m hm (hdepth ▸ hflow) between after tail hbetween hafter htail hcursor
  refine ⟨r, gap, (hreach.trans hreach').mono ?_, hr, hdepth'.trans hdepth, ?_, hgap, hcursor'⟩
  · simp only [List.length_append, List.length_cons]
    omega
  · rw [hemitted', hemitted, List.append_assoc]
    rfl

end DocSchema.Yaml
