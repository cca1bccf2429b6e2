import DocSchema.Proofs.Json.Values
import DocSchema.Proofs.Yaml.FlowNodes
import DocSchema.Proofs.Yaml.FlowScalars
import DocSchema.Proofs.Yaml.Numbers
import DocSchema.Schema.Document

/-!
# Portable JSON is YAML

A reader of YAML takes portable JSON for what it is: it cuts the text into the tokens of brackets,
keys and scalars, and what these are parsed to has the value that JSON gives the text. The
induction goes over the derivation of the text and carries both at once, so that a part can stand
wherever the grammar puts it.

## Main results

* `read_of_portable`: portable JSON read as YAML
-/

namespace DocSchema

-- Decisions about the members of a list go through the list and not through all characters.
attribute [local instance (2000)] List.decidableBAll

namespace Yaml

open Json.Portable
open DocSchema.Yaml.Parser (Yields YieldsItems YieldsEntries)

/-! ## Strings -/

theorem isPiece_of_isCharacter {part : List Char} {c : Char} (h : IsCharacter part c)
    (hspace : part ≠ [' ']) : IsPiece part [c] := by
  cases h with
  | plain hcontrol hquote hback _ hbreak =>
    have htab : c ≠ '\t' := by
      rintro rfl
      exact absurd hcontrol (by decide)
    have hblank : c ≠ ' ' := fun hc => hspace (congrArg (· :: []) hc)
    refine isPiece_plain ?_ hquote hback
    rw [isSpacing, isSpaceOrTab, hbreak, Bool.or_false, Bool.or_eq_false_iff, beq_eq_false_iff_ne,
      beq_eq_false_iff_ne]
    exact ⟨hblank, htab⟩
  | @short letter code hescape =>
    have hknown : ∀ entry ∈ shortEscapes, Assoc.find? entry.1 escapeTable = some entry.2 := by decide
    exact isPiece_letter (hknown _ hescape)
  | @unit a b c d code hcode hvalid =>
    obtain ⟨w, x, y, z, ha, hb, hc, hd, hsum⟩ := exists_digits_of_codeUnit? hcode
    have hvalue : hexValue? [a, b, c, d] = some code := by
      rw [hsum, hexValue?]
      simp only [List.foldl_cons, List.foldl_nil, ha, hb, hc, hd]
      show some ((((0 * 16 + w) * 16 + x) * 16 + y) * 16 + z) = _
      rw [Nat.zero_mul, Nat.zero_add]
    exact isPiece_code (by decide) rfl rfl hvalue hvalid

theorem spells_of_isBody {cs read : List Char} (h : IsBody cs read) : Spells cs read := by
  induction h with
  | nil => exact .nil
  | @cons part cs read c hpart _ ih =>
    by_cases hspace : part = [' ']
    · subst hspace
      cases hpart
      exact .space ih
    · exact .piece (isPiece_of_isCharacter hpart hspace) ih

/-- What is permitted and ends no line. -/
def isPlainInside (c : Char) : Bool := isPermitted c && !isBreak c

theorem isPlainInside_of_isCharacter {part : List Char} {c : Char} (h : IsCharacter part c) :
    ∀ d ∈ part, isPlainInside d = true := by
  cases h with
  | plain _ _ _ hpermitted hbreak =>
    intro d hd
    rw [List.mem_singleton.mp hd, isPlainInside, hpermitted, hbreak]
    rfl
  | short hescape =>
    have hknown : ∀ entry ∈ shortEscapes, ∀ d ∈ ['\\', entry.1], isPlainInside d = true := by decide
    exact hknown _ hescape
  | unit hcode _ =>
    obtain ⟨_, _, _, _, ha, hb, hc, hd, -⟩ := exists_digits_of_codeUnit? hcode
    have hhex : ∀ d ∈ Json.Grammar.hexDigits, isPlainInside d = true := by decide
    simp only [List.forall_mem_cons]
    exact ⟨rfl, rfl, hhex _ (mem_hexDigits_of_hexDigit? ha), hhex _ (mem_hexDigits_of_hexDigit? hb),
      hhex _ (mem_hexDigits_of_hexDigit? hc), hhex _ (mem_hexDigits_of_hexDigit? hd), nofun⟩

theorem isPlainInside_of_isBody {cs read : List Char} (h : IsBody cs read) :
    ∀ d ∈ cs, isPlainInside d = true := by
  induction h with
  | nil => nofun
  | cons hpart _ ih => exact List.forall_mem_append.mpr ⟨isPlainInside_of_isCharacter hpart, ih⟩

theorem isLine_of_isBody {cs read : List Char} (h : IsBody cs read) : IsLine cs := by
  intro d hd
  have hinside := isPlainInside_of_isBody h d hd
  rw [isPlainInside, Bool.and_eq_true, Bool.not_eq_true'] at hinside
  exact hinside.2

/-! ## Parts of a text -/

/-- A part of a text is cut into tokens that are parsed to a value, and no character in it is
forbidden. -/
structure Reads (cs : List Char) (v : Value) : Prop where
  permitted : ∀ c ∈ cs, isPermitted c = true
  exists_tokens : ∃ ts, Lexes cs ts ∧ Yields ts v

/-- A part with gaps around it. -/
structure ReadsElement (cs : List Char) (v : Value) : Prop where
  permitted : ∀ c ∈ cs, isPermitted c = true
  exists_tokens : ∃ before core after ts, cs = before ++ core ++ after ∧ IsGap before ∧
    IsGap after ∧ Lexes core ts ∧ Yields ts v

/-- The items of a list. -/
structure ReadsItems (cs : List Char) (vs : List Value) : Prop where
  permitted : ∀ c ∈ cs, isPermitted c = true
  exists_tokens : ∃ ts, LexesEntries cs ts ∧ YieldsItems ts vs

/-- A key and its value. -/
structure ReadsMember (cs : List Char) (key : String) (v : Value) : Prop where
  permitted : ∀ c ∈ cs, isPermitted c = true
  exists_tokens : ∃ ts, LexesEntries cs (.key :: .scalar false key :: .value :: ts) ∧ Yields ts v

/-- The members of an object. -/
structure ReadsMembers (cs : List Char) (entries : List (String × Value)) : Prop where
  permitted : ∀ c ∈ cs, isPermitted c = true
  exists_tokens : ∃ ts, LexesEntries cs ts ∧ YieldsEntries ts entries

theorem isPermitted_of_isGap {gap : List Char} (h : IsGap gap) : ∀ c ∈ gap, isPermitted c = true := by
  have hgap : ∀ c ∈ [' ', '\n', '\r'], isPermitted c = true := by decide
  exact fun c hc => hgap c (h c hc)

theorem isPermitted_between {opening closing : Char} {cs : List Char}
    (hopening : isPermitted opening = true) (hclosing : isPermitted closing = true)
    (h : ∀ c ∈ cs, isPermitted c = true) :
    ∀ c ∈ opening :: (cs ++ [closing]), isPermitted c = true :=
  List.forall_mem_cons.mpr ⟨hopening, List.forall_mem_append.mpr ⟨h, List.forall_mem_singleton.mpr
    hclosing⟩⟩

theorem isPermitted_comma {cs rest : List Char} (h : ∀ c ∈ cs, isPermitted c = true)
    (hrest : ∀ c ∈ rest, isPermitted c = true) : ∀ c ∈ cs ++ ',' :: rest, isPermitted c = true :=
  List.forall_mem_append.mpr ⟨h, List.forall_mem_cons.mpr ⟨rfl, hrest⟩⟩

/-! ### Scalars -/

theorem isPermitted_of_isWordChar {c : Char} (h : isWordChar c = true) : isPermitted c = true := by
  have hrange := printable_of_isWordChar h
  simp only [isPermitted, Bool.or_eq_true, Bool.and_eq_true, decide_eq_true_eq, beq_iff_eq]
  omega

/-- A scalar with a value has no faults. -/
theorem textValue_eq {tag : Tag} {text : String} {v : Value} (h : Scalar.value tag text = .ok v)
    (depth : Nat) : Node.textValue depth tag text = (v, []) := by
  have hscalar : Node.scalarValue depth tag (some text) = (v, []) := by
    rw [Node.scalarValue, h]
  cases tag with
  | list => cases h
  | map => cases h
  | set => cases h
  | pairs => cases h
  | _ => exact hscalar

/-- A word is read as the value of its plain text. -/
theorem reads_word {cs : List Char} {v : Value} (hstart : StartsWord cs)
    (hcs : ∀ c ∈ cs, isWordChar c = true)
    (h : ∀ depth, Node.textValue depth (Tag.ofPlain (String.ofList cs)) (String.ofList cs) = (v, [])) :
    Reads cs v where
  permitted c hc := isPermitted_of_isWordChar (hcs c hc)
  exists_tokens := ⟨_, lexes_word hstart hcs, Parser.yields_scalar h⟩

theorem startsWord_signed (negative : Bool) {cs : List Char} (h : Json.Grammar.IsDigits cs)
    (more : List Char) : StartsWord (signChars negative ++ (cs ++ more)) := by
  obtain ⟨d, ds, rfl⟩ := List.exists_cons_of_ne_nil h.ne_nil
  have hd := h.isDigit d List.mem_cons_self
  cases negative with
  | true => exact ⟨'-', _, rfl, .inr ⟨rfl, d, _, rfl, hd⟩⟩
  | false =>
    refine ⟨d, _, rfl, .inl ?_⟩
    rw [Char.isAlphanum, hd, Bool.or_true]

theorem reads_number {cs : List Char} {j : Json} (h : IsNumber cs j) : Reads cs j.toValue := by
  cases h with
  | int negative hwhole hlength =>
    have hdigits := isDigit_of_isWhole hwhole
    have hstart := startsWord_signed negative hdigits []
    rw [List.append_nil] at hstart
    refine reads_word hstart (isWordChar_int negative hdigits) fun depth => ?_
    rw [Tag.ofPlain_int negative hwhole]
    refine textValue_eq ?_ depth
    show ((Scalar.int _).map Value.int).mapError Fault.scalar = _
    rw [Scalar.int_eq negative hwhole hlength, Json.toValue]
    rfl
  | float negative hwhole hplaces hexponent =>
    refine reads_word (startsWord_signed negative (isDigit_of_isWhole hwhole) _)
      (isWordChar_float hwhole hplaces hexponent negative) fun depth => ?_
    rw [Tag.ofPlain_float negative hwhole hplaces hexponent]
    have hvalue := Scalar.float_eq hwhole hplaces hexponent negative
    refine textValue_eq ?_ depth
    simp only [Scalar.value, hvalue, Json.toValue]
    rfl

theorem reads_string {cs : List Char} {s : String} (h : IsString cs s) : Reads cs (.text s) := by
  obtain ⟨h⟩ := h
  have hspells := spells_of_isBody h
  refine ⟨isPermitted_between rfl rfl fun c hc => ?_, _, lexes_quoted hspells,
    Parser.yields_scalar fun depth => rfl⟩
  have hinside := isPlainInside_of_isBody h c hc
  rw [isPlainInside, Bool.and_eq_true] at hinside
  exact hinside.1

/-! ### Lists and mappings -/

theorem readsItems_gap {gap : List Char} (h : IsGap gap) : ReadsItems gap [] :=
  ⟨isPermitted_of_isGap h, [], lexesEntries_gap h, Parser.yieldsItems_nil⟩

theorem readsMembers_gap {gap : List Char} (h : IsGap gap) : ReadsMembers gap [] :=
  ⟨isPermitted_of_isGap h, [], lexesEntries_gap h, Parser.yieldsEntries_nil⟩

theorem ReadsItems.list {cs : List Char} {vs : List Value} (h : ReadsItems cs vs) :
    Reads ('[' :: (cs ++ [']'])) (.list vs) := by
  obtain ⟨ts, hlexes, hyields⟩ := h.exists_tokens
  exact ⟨isPermitted_between rfl rfl h.permitted, _, fun l hl _ => cuts_list hlexes hl,
    Parser.yields_list hyields⟩

/-- A mapping is cut into tokens outside of other brackets, too. -/
theorem ReadsMembers.exists_cuts {cs : List Char} {entries : List (String × Value)}
    (h : ReadsMembers cs entries) :
    ∃ ts, (∀ l : Lexer, l.Loose → l.Cuts ('\x7b' :: (cs ++ ['\x7d'])) ts) ∧
      Yields ts (.mapping (entries.map fun (key, value) => (.text key, value))) := by
  obtain ⟨ts, hlexes, hyields⟩ := h.exists_tokens
  exact ⟨_, fun l hl => cuts_map hlexes hl, Parser.yields_map hyields⟩

theorem ReadsMembers.map {cs : List Char} {entries : List (String × Value)}
    (h : ReadsMembers cs entries) :
    Reads ('\x7b' :: (cs ++ ['\x7d']))
      (.mapping (entries.map fun (key, value) => (.text key, value))) := by
  obtain ⟨ts, hcuts, hyields⟩ := h.exists_cuts
  exact ⟨isPermitted_between rfl rfl h.permitted, ts, fun l hl _ => hcuts l hl, hyields⟩

theorem Reads.element {before cs after : List Char} {v : Value} (h : Reads cs v)
    (hbefore : IsGap before) (hafter : IsGap after) : ReadsElement (before ++ cs ++ after) v := by
  obtain ⟨ts, hlexes, hyields⟩ := h.exists_tokens
  refine ⟨?_, before, cs, after, ts, rfl, hbefore, hafter, hlexes, hyields⟩
  exact List.forall_mem_append.mpr ⟨List.forall_mem_append.mpr
    ⟨isPermitted_of_isGap hbefore, h.permitted⟩, isPermitted_of_isGap hafter⟩

theorem ReadsElement.last {cs : List Char} {v : Value} (h : ReadsElement cs v) :
    ReadsItems cs [v] := by
  obtain ⟨before, core, after, ts, rfl, hbefore, hafter, hlexes, hyields⟩ := h.exists_tokens
  exact ⟨h.permitted, ts, hlexes.entries hbefore hafter, hyields.last⟩

theorem ReadsElement.more {cs rest : List Char} {v : Value} {vs : List Value}
    (h : ReadsElement cs v) (hrest : ReadsItems rest vs) :
    ReadsItems (cs ++ ',' :: rest) (v :: vs) := by
  obtain ⟨before, core, after, ts, rfl, hbefore, hafter, hlexes, hyields⟩ := h.exists_tokens
  obtain ⟨more, hlexes', hyields'⟩ := hrest.exists_tokens
  exact ⟨isPermitted_comma h.permitted hrest.permitted, _,
    (hlexes.entries hbefore hafter).comma hlexes', hyields.more hyields'⟩

theorem ReadsElement.member {before key spaces cs : List Char} {s : String} {v : Value}
    (h : ReadsElement cs v) (hbefore : IsGap before) (hkey : IsString key s)
    (hspaces : ∀ c ∈ spaces, c = ' ') (hlength : key.length + spaces.length ≤ 1024) :
    ReadsMember (before ++ key ++ spaces ++ ':' :: cs) s v := by
  have hpermitted := (reads_string hkey).permitted
  obtain ⟨hbody⟩ := hkey
  obtain ⟨between, core, after, ts, rfl, hbetween, hafter, hlexes, hyields⟩ := h.exists_tokens
  refine ⟨?_, ts, lexesEntries_member hbefore (spells_of_isBody hbody) (isLine_of_isBody hbody)
    hspaces ?_ hbetween hlexes hafter, hyields⟩
  · have hspacesPermitted : ∀ c ∈ spaces, isPermitted c = true := fun c hc => hspaces c hc ▸ rfl
    exact List.forall_mem_append.mpr ⟨List.forall_mem_append.mpr ⟨List.forall_mem_append.mpr
      ⟨isPermitted_of_isGap hbefore, hpermitted⟩, hspacesPermitted⟩,
      List.forall_mem_cons.mpr ⟨rfl, h.permitted⟩⟩
  · rw [List.length_cons, List.length_append, List.length_singleton] at hlength
    omega

theorem ReadsMember.last {cs : List Char} {key : String} {v : Value} (h : ReadsMember cs key v) :
    ReadsMembers cs [(key, v)] := by
  obtain ⟨ts, hlexes, hyields⟩ := h.exists_tokens
  exact ⟨h.permitted, _, hlexes, hyields.lastEntry key⟩

theorem ReadsMember.more {cs rest : List Char} {key : String} {v : Value}
    {entries : List (String × Value)} (h : ReadsMember cs key v)
    (hrest : ReadsMembers rest entries) : ReadsMembers (cs ++ ',' :: rest) ((key, v) :: entries) := by
  obtain ⟨ts, hlexes, hyields⟩ := h.exists_tokens
  obtain ⟨more, hlexes', hyields'⟩ := hrest.exists_tokens
  exact ⟨isPermitted_comma h.permitted hrest.permitted, _, hlexes.comma hlexes',
    hyields.moreEntries key hyields'⟩

/-! ### The induction -/

/-- The document values of members, in their order and with all keys. -/
def memberValues (members : List (String × Json)) : List (String × Value) :=
  members.map fun (key, j) => (key, j.toValue)

theorem mapping_memberValues (members : List (String × Json)) :
    Value.mapping ((memberValues members).map fun (key, value) => (.text key, value)) =
      Json.toValue (.object (Assoc.ofList (· == ·) members)) := by
  rw [Json.toValue, ← Json.ofList_toEntries, Value.mapping, memberValues, List.map_map,
    Json.toEntries_eq_map]
  rfl

theorem reads_object {cs : List Char} {members : List (String × Json)}
    (h : ReadsMembers cs (memberValues members)) :
    Reads ('\x7b' :: (cs ++ ['\x7d'])) (Json.toValue (.object (Assoc.ofList (· == ·) members))) := by
  rw [← mapping_memberValues]
  exact h.map

mutual

theorem reads_value {cs : List Char} {j : Json} : IsValue cs j → Reads cs j.toValue
  | .null => reads_word ⟨'n', _, rfl, .inl rfl⟩ (by decide) (textValue_eq rfl)
  | .true => reads_word ⟨'t', _, rfl, .inl rfl⟩ (by decide) (textValue_eq rfl)
  | .false => reads_word ⟨'f', _, rfl, .inl rfl⟩ (by decide) (textValue_eq rfl)
  | .number h => reads_number h
  | .string h => reads_string h
  | .emptyList h => (readsItems_gap h).list
  | .list h => (reads_items h).list
  | .emptyObject h => (readsMembers_gap h).map
  | .object h => reads_object (reads_members h)

theorem reads_element {cs : List Char} {j : Json} : IsElement cs j → ReadsElement cs j.toValue
  | .spaced hbefore h hafter => (reads_value h).element hbefore hafter

theorem reads_items {cs : List Char} {items : List Json} :
    IsItems cs items → ReadsItems cs (Json.toValues items)
  | .last h => (reads_element h).last
  | .more h hrest => (reads_element h).more (reads_items hrest)

theorem reads_member {cs : List Char} {member : String × Json} :
    IsMember cs member → ReadsMember cs member.1 member.2.toValue
  | .spaced hbefore hkey hspaces hlength h =>
    (reads_element h).member hbefore hkey hspaces hlength

theorem reads_members {cs : List Char} {members : List (String × Json)} :
    IsMembers cs members → ReadsMembers cs (memberValues members)
  | .last h => (reads_member h).last
  | .more h hrest => (reads_member h).more (reads_members hrest)

end

/-! ## Whole texts -/

namespace Lexer

variable {l m r : Lexer}

/-- The last step ends a run. -/
theorem run_eq {n fuel : Nat} (h : Reaches n l m) (hstep : m.step = .ok r) (hdone : r.done = true)
    (hfuel : n < fuel) : run fuel l = .ok r := by
  obtain ⟨k, rfl⟩ := Nat.exists_eq_add_of_lt hfuel
  obtain ⟨more, hmore⟩ := run_of_reaches h (k + 1)
  rw [Nat.add_assoc, hmore, ← Nat.add_assoc, run]
  refine Except.bind_eq_ok_iff.mpr ⟨r, hstep, ?_⟩
  rw [hdone, if_pos rfl]
  rfl

/-- A step that fails ends a run. -/
theorem run_eq_error {n fuel : Nat} {fault : Fault} (h : Reaches n l m) (hstep : m.step = .error fault)
    (hfuel : n < fuel) : run fuel l = .error fault := by
  obtain ⟨k, rfl⟩ := Nat.exists_eq_add_of_lt hfuel
  obtain ⟨more, hmore⟩ := run_of_reaches h (k + 1)
  rw [Nat.add_assoc, hmore, ← Nat.add_assoc, run, hstep]
  rfl

end Lexer

/-- The tokens of a text that a lexer cuts from its start on. -/
theorem tokens_eq {text : String} {before core after : List Char} {ts : List Token}
    (htext : text.toList = before ++ core ++ after)
    (hpermitted : ∀ c ∈ text.toList, isPermitted c = true)
    (hmark : ∀ c ∈ text.toList.head?, c.toNat ≠ 0xFEFF) (hbefore : IsGap before)
    (hafter : IsGap after) (hcuts : ∀ l : Lexer, l.Loose → l.Cuts core ts) :
    tokens text = .ok ts := by
  have hstart : textStart text.toList = { rest := text.toList } := by
    cases hcs : text.toList with
    | nil => rfl
    | cons c cs =>
      rw [textStart, if_neg]
      exact hmark c (by rw [hcs]; rfl)
  have hloose : ({ cursor := { rest := text.toList } } : Lexer).Loose :=
    ⟨⟨nofun, nofun⟩, rfl, rfl, nofun⟩
  have hrest : text.toList = before ++ (core ++ (after ++ [])) := by
    rw [htext, List.append_nil, List.append_assoc]
  obtain ⟨m, gap, hreach, hm, -, hemitted, hgap, hcursor⟩ :=
    hcuts _ hloose before after [] hbefore hafter nofun hrest
  rw [List.append_nil] at hcursor
  obtain ⟨r, hstep, hdone, hsame⟩ := hm.exists_finish (hcursor ▸ hgap)
  have hfuel : core.length < text.toList.length + 2 := by
    rw [htext, List.length_append, List.length_append]
    omega
  rw [tokens, if_pos (List.all_eq_true.mpr hpermitted), hstart]
  refine Except.bind_eq_ok_iff.mpr ⟨r, Lexer.run_eq hreach hstep hdone hfuel, ?_⟩
  show Except.ok r.emitted = _
  rw [hsame, hemitted]
  rfl

/-- The document of tokens that are parsed to a value. -/
theorem exists_ofTokens? {ts : List Token} {v : Value} (h : Yields ts v) :
    ∃ n, Node.ofTokens? ts = .ok (some n) ∧ n.toValue = .ok v := by
  obtain ⟨t, rest, hts, ht⟩ := h.starts
  obtain ⟨n, hn, hvalue⟩ := h.parses true false (4 * ts.length + 8)
    { handles := Parser.standardHandles } [] (Nat.le_add_right _ _)
  rw [List.append_nil] at hn
  have hround : Parser.round [] ts = .ok (some n, { handles := Parser.standardHandles }) := by
    rw [hts] at hn ⊢
    cases t <;> first
      | exact Except.bind_eq_ok_iff.mpr ⟨_, hn, rfl⟩
      | cases ht
  refine ⟨n, Except.bind_eq_ok_iff.mpr ⟨_, hround, rfl⟩, ?_⟩
  rw [Node.toValue, hvalue]
  rfl

/-- An object is cut into tokens wherever it stands. -/
theorem exists_cuts_object {cs : List Char} {members : List (String × Json)}
    (h : IsValue cs (.object members)) :
    cs.head? = some '\x7b' ∧ ∃ ts, (∀ l : Lexer, l.Loose → l.Cuts cs ts) ∧
      Yields ts (Json.toValue (.object members)) := by
  cases h with
  | number h => cases h
  | emptyObject h => exact ⟨rfl, (readsMembers_gap h).exists_cuts⟩
  | object h =>
    rw [← mapping_memberValues]
    exact ⟨rfl, (reads_members h).exists_cuts⟩

/-- Portable JSON with an object at its root has the same value in YAML. -/
theorem read_of_portable {text : String} {members : List (String × Json)}
    (h : IsElement text.toList (.object members)) :
    read text = .ok (Json.toValue (.object members)) := by
  have hpermitted := (reads_element h).permitted
  generalize hcs : text.toList = cs at h
  obtain @⟨before, core, after, _, hbefore, hvalue, hafter⟩ := h
  obtain ⟨hhead, ts, hcuts, hyields⟩ := exists_cuts_object hvalue
  have hmark : ∀ c ∈ text.toList.head?, c.toNat ≠ 0xFEFF := by
    intro c hc
    rw [hcs, List.append_assoc] at hc
    cases before with
    | nil =>
      rw [List.nil_append, List.head?_append, hhead] at hc
      obtain rfl : '\x7b' = c := Option.some.inj hc
      decide
    | cons d before =>
      obtain rfl : d = c := Option.some.inj hc
      have hgap : ∀ d ∈ [' ', '\n', '\r'], d.toNat ≠ 0xFEFF := by decide
      exact hgap d (hbefore d List.mem_cons_self)
  have htokens := tokens_eq hcs hpermitted hmark hbefore hafter hcuts
  obtain ⟨n, hn, hdocument⟩ := exists_ofTokens? hyields
  exact Except.bind_eq_ok_iff.mpr ⟨ts, htokens, Except.bind_eq_ok_iff.mpr ⟨some n, hn, hdocument⟩⟩

end Yaml

end DocSchema
