import DocSchema.Proofs.Yaml.FlowNodes

/-!
# Nodes outside of brackets

What the tokens of a block node are parsed to. A list that is not indented has no tokens of its
own around its items, so it ends in front of the first token that is no item: such a list is a
value of a mapping, and a key or the end of the mapping follows it.

## Main definitions

* `YieldsNode`, `YieldsKey`: tokens are parsed to a node of a value
* `YieldsBlockItems`, `YieldsBlockEntries`: the same of the items of a list and the entries of a
  mapping

## Main results

* `YieldsBlockItems.list`, `YieldsBlockItems.flatList`, `YieldsBlockEntries.map`
-/

namespace DocSchema.Yaml.Parser

/-- A token that a node starts with. An item starts one where lists are not indented. -/
def beginsNode (flat : Bool) : Token → Bool
  | .key => false
  | .value => false
  | .blockEnd => false
  | .entry => flat
  | _ => true

/-- The parser knows what the standard handle stands for. -/
def Knows (p : Parser) : Prop := Assoc.find? "!!" p.handles = some Tag.schemaText

/-- Tokens are parsed to a node of a value without faults. Where lists are not indented no item
may follow. -/
structure YieldsNode (flat : Bool) (ts : List Token) (v : Value) : Prop where
  begins : ∃ t rest, ts = t :: rest ∧ beginsNode flat t = true
  parses : ∀ (fuel : Nat) (p : Parser) (rest : List Token), 4 * ts.length + 4 ≤ fuel → p.Knows →
    (flat = true → rest.head? ≠ some .entry) →
      ∃ n, node true flat fuel p (ts ++ rest) = .ok (n, rest, p) ∧ ∀ depth, n.value depth = (v, [])

/-- Tokens are parsed to a scalar. -/
structure YieldsKey (ts : List Token) (v : Value) : Prop where
  begins : ∃ t rest, ts = t :: rest ∧ beginsNode false t = true
  isKey : v.isKey = true
  parses : ∀ (flat : Bool) (fuel : Nat) (p : Parser) (rest : List Token), 4 * ts.length + 4 ≤ fuel →
    p.Knows → ∃ tag text, node true flat fuel p (ts ++ rest) = .ok (.scalar tag text, rest, p) ∧
      tag.isScalar = true ∧ Scalar.value tag text = .ok v

theorem beginsNode_of_false {flat : Bool} {t : Token} (h : beginsNode false t = true) :
    beginsNode flat t = true := by
  cases t <;> first | exact h | cases h

theorem textValue_of_isScalar {tag : Tag} {text : String} {v : Value} (htag : tag.isScalar = true)
    (h : Scalar.value tag text = .ok v) (depth : Nat) : Node.textValue depth tag text = (v, []) := by
  have hscalar : Node.scalarValue depth tag (some text) = (v, []) := by
    rw [Node.scalarValue, h]
  cases tag <;> first | exact hscalar | cases htag

theorem YieldsKey.node {ts : List Token} {v : Value} (h : YieldsKey ts v) (flat : Bool) :
    YieldsNode flat ts v where
  begins := by
    obtain ⟨t, rest, hts, ht⟩ := h.begins
    exact ⟨t, rest, hts, beginsNode_of_false ht⟩
  parses fuel p rest hfuel hp _ := by
    obtain ⟨tag, text, hnode, htag, hvalue⟩ := h.parses flat fuel p rest hfuel hp
    exact ⟨_, hnode, fun depth => textValue_of_isScalar htag hvalue depth⟩

/-! ## Items -/

/-- Tokens are parsed to the items of a list, whether the list is indented or not. -/
structure YieldsBlockItems (ts : List Token) (vs : List Value) : Prop where
  begins : ts.head? = some .entry
  indented : ∀ (fuel : Nat) (p : Parser) (rest : List Token), 4 * ts.length + 1 ≤ fuel → p.Knows →
    ∃ ns, blockItems fuel p (ts ++ .blockEnd :: rest) = .ok (ns, rest, p) ∧
      ∀ depth, Node.itemValues depth ns = (vs, [])
  flat : ∀ (fuel : Nat) (p : Parser) (rest : List Token), 4 * ts.length + 1 ≤ fuel → p.Knows →
    rest.head? ≠ some .entry →
    ∃ ns, flatItems fuel p (ts ++ rest) = .ok (ns, rest, p) ∧
      ∀ depth, Node.itemValues depth ns = (vs, [])

theorem flatItems_nil {fuel : Nat} {p : Parser} {rest : List Token} (h : rest.head? ≠ some .entry) :
    flatItems (fuel + 1) p rest = .ok ([], rest, p) := by
  rw [flatItems.eq_def]
  cases rest with
  | nil => rfl
  | cons t rest => cases t <;> first | rfl | exact absurd rfl h

/-- One more item in front of others. -/
theorem blockItems_cons {its more rest : List Token} {v : Value} {vs : List Value}
    (h : YieldsNode false its v) {fuel : Nat} {p : Parser} (hp : p.Knows)
    (hfuel : 4 * its.length + 4 ≤ fuel)
    (hmore : ∃ ns, blockItems fuel p more = .ok (ns, rest, p) ∧
      ∀ depth, Node.itemValues depth ns = (vs, [])) :
    ∃ ns, blockItems (fuel + 1) p (.entry :: (its ++ more)) = .ok (ns, rest, p) ∧
      ∀ depth, Node.itemValues depth ns = (v :: vs, []) := by
  obtain ⟨n, hn, hvalue⟩ := h.parses fuel p more hfuel hp nofun
  obtain ⟨ns, hns, hvalues⟩ := hmore
  obtain ⟨t, tail, rfl, ht⟩ := h.begins
  refine ⟨n :: ns, ?_, fun depth => ?_⟩
  · have hstart : endsListEntry (t :: tail ++ more) = false := by
      cases t <;> first | rfl | cases ht
    rw [blockItems.eq_def]
    dsimp only
    rw [hstart, if_neg Bool.false_ne_true]
    exact Except.bind_eq_ok_iff.mpr ⟨_, hn, Except.bind_eq_ok_iff.mpr ⟨_, hns, rfl⟩⟩
  · rw [Node.itemValues, hvalue, hvalues]
    rfl

theorem flatItems_cons {its more rest : List Token} {v : Value} {vs : List Value}
    (h : YieldsNode false its v) {fuel : Nat} {p : Parser} (hp : p.Knows)
    (hfuel : 4 * its.length + 4 ≤ fuel)
    (hmore : ∃ ns, flatItems fuel p more = .ok (ns, rest, p) ∧
      ∀ depth, Node.itemValues depth ns = (vs, [])) :
    ∃ ns, flatItems (fuel + 1) p (.entry :: (its ++ more)) = .ok (ns, rest, p) ∧
      ∀ depth, Node.itemValues depth ns = (v :: vs, []) := by
  obtain ⟨n, hn, hvalue⟩ := h.parses fuel p more hfuel hp nofun
  obtain ⟨ns, hns, hvalues⟩ := hmore
  obtain ⟨t, tail, rfl, ht⟩ := h.begins
  refine ⟨n :: ns, ?_, fun depth => ?_⟩
  · have hstart : endsFlatEntry (t :: tail ++ more) = false := by
      cases t <;> first | rfl | cases ht
    rw [flatItems.eq_def]
    dsimp only
    rw [hstart, if_neg Bool.false_ne_true]
    exact Except.bind_eq_ok_iff.mpr ⟨_, hn, Except.bind_eq_ok_iff.mpr ⟨_, hns, rfl⟩⟩
  · rw [Node.itemValues, hvalue, hvalues]
    rfl

theorem YieldsNode.lastItem {its : List Token} {v : Value} (h : YieldsNode false its v) :
    YieldsBlockItems (.entry :: its) [v] where
  begins := rfl
  indented fuel p rest hfuel hp := by
    obtain ⟨fuel, rfl⟩ := Nat.exists_eq_add_of_le' (Nat.le_trans (Nat.le_add_left 1 _) hfuel)
    rw [List.length_cons] at hfuel
    obtain ⟨less, rfl⟩ := Nat.exists_eq_add_of_le' (by omega : 1 ≤ fuel)
    refine blockItems_cons h hp (by omega) ⟨[], ?_, fun _ => rfl⟩
    rw [blockItems]
  flat fuel p rest hfuel hp hrest := by
    obtain ⟨fuel, rfl⟩ := Nat.exists_eq_add_of_le' (Nat.le_trans (Nat.le_add_left 1 _) hfuel)
    rw [List.length_cons] at hfuel
    obtain ⟨less, rfl⟩ := Nat.exists_eq_add_of_le' (by omega : 1 ≤ fuel)
    exact flatItems_cons h hp (by omega) ⟨[], flatItems_nil hrest, fun _ => rfl⟩

theorem YieldsNode.moreItems {its more : List Token} {v : Value} {vs : List Value}
    (h : YieldsNode false its v) (hmore : YieldsBlockItems more vs) :
    YieldsBlockItems (.entry :: its ++ more) (v :: vs) where
  begins := rfl
  indented fuel p rest hfuel hp := by
    obtain ⟨fuel, rfl⟩ := Nat.exists_eq_add_of_le' (Nat.le_trans (Nat.le_add_left 1 _) hfuel)
    rw [List.length_append, List.length_cons] at hfuel
    rw [List.append_assoc, List.cons_append]
    exact blockItems_cons h hp (by omega) (hmore.indented fuel p rest (by omega) hp)
  flat fuel p rest hfuel hp hrest := by
    obtain ⟨fuel, rfl⟩ := Nat.exists_eq_add_of_le' (Nat.le_trans (Nat.le_add_left 1 _) hfuel)
    rw [List.length_append, List.length_cons] at hfuel
    rw [List.append_assoc, List.cons_append]
    exact flatItems_cons h hp (by omega) (hmore.flat fuel p rest (by omega) hp hrest)

/-- A list that is indented. -/
theorem YieldsBlockItems.list {ts : List Token} {vs : List Value} (h : YieldsBlockItems ts vs)
    (flat : Bool) : YieldsNode flat (.blockListStart :: (ts ++ [.blockEnd])) (.list vs) where
  begins := ⟨_, _, rfl, rfl⟩
  parses fuel p rest hfuel hp _ := by
    rw [List.length_cons, List.length_append, List.length_singleton] at hfuel
    obtain ⟨fuel, rfl⟩ := Nat.exists_eq_add_of_le' (Nat.le_trans (by omega : 3 ≤ _) hfuel)
    obtain ⟨ns, hns, hvalues⟩ := h.indented fuel p rest (by omega) hp
    rw [List.cons_append, List.append_assoc, List.singleton_append]
    refine ⟨.list .list ns, node_eq rfl ?_, fun depth => ?_⟩
    · rw [content.eq_def]
      dsimp only
      rw [blockContent.eq_def]
      exact Except.bind_eq_ok_iff.mpr ⟨_, hns, rfl⟩
    · rw [Node.value, hvalues]

/-- A list that is not indented. -/
theorem YieldsBlockItems.flatList {ts : List Token} {vs : List Value} (h : YieldsBlockItems ts vs) :
    YieldsNode true ts (.list vs) where
  begins := by
    obtain ⟨ts, rfl⟩ := List.head?_eq_some_iff.mp h.begins
    exact ⟨_, _, rfl, rfl⟩
  parses fuel p rest hfuel hp hrest := by
    obtain ⟨fuel, rfl⟩ := Nat.exists_eq_add_of_le' (Nat.le_trans (by omega : 3 ≤ _) hfuel)
    obtain ⟨ns, hns, hvalues⟩ := h.flat fuel p rest (by omega) hp (hrest rfl)
    obtain ⟨ts, rfl⟩ := List.head?_eq_some_iff.mp h.begins
    refine ⟨.list .list ns, node_eq rfl ?_, fun depth => ?_⟩
    · rw [content.eq_def]
      dsimp only
      rw [blockContent.eq_def]
      exact Except.bind_eq_ok_iff.mpr ⟨_, hns, rfl⟩
    · rw [Node.value, hvalues]

/-! ## Entries -/

/-- Tokens are parsed to the entries of a mapping. -/
def YieldsBlockEntries (ts : List Token) (entries : List (Value × Value)) : Prop :=
  ∀ (fuel : Nat) (p : Parser) (rest : List Token), 4 * ts.length + 1 ≤ fuel → p.Knows →
    ∃ ns, blockEntries fuel p (ts ++ .blockEnd :: rest) = .ok (ns, rest, p) ∧
      ∀ depth, Node.entryValues depth ns = { own := entries }

/-- An entry with a key that is a scalar, in front of others. -/
theorem blockEntries_cons {kts vts more rest : List Token} {k v : Value}
    {entries : List (Value × Value)} (hk : YieldsKey kts k) (hv : YieldsNode true vts v)
    {fuel : Nat} {p : Parser} (hp : p.Knows) (hkey : 4 * kts.length + 4 ≤ fuel)
    (hvalue : 4 * vts.length + 5 ≤ fuel) (hentry : more.head? ≠ some .entry)
    (hmore : ∃ ns, blockEntries fuel p more = .ok (ns, rest, p) ∧
      ∀ depth, Node.entryValues depth ns = { own := entries }) :
    ∃ ns, blockEntries (fuel + 1) p (.key :: (kts ++ .value :: (vts ++ more))) = .ok (ns, rest, p) ∧
      ∀ depth, Node.entryValues depth ns = { own := (k, v) :: entries } := by
  obtain ⟨tag, text, hknode, htag, hscalar⟩ :=
    hk.parses true fuel p (.value :: (vts ++ more)) hkey hp
  obtain ⟨fuel, rfl⟩ := Nat.exists_eq_add_of_le' (Nat.le_trans (Nat.le_add_left 1 _) hkey)
  obtain ⟨n, hn, hvalues⟩ := hv.parses fuel p more (by omega) hp fun _ => hentry
  obtain ⟨ns, hns, hentries⟩ := hmore
  obtain ⟨t, tail, rfl, ht⟩ := hk.begins
  obtain ⟨u, vtail, rfl, hu⟩ := hv.begins
  have hstart : endsMapNode (t :: tail ++ .value :: (u :: vtail ++ more)) = false := by
    cases t <;> first | rfl | cases ht
  have hvstart : endsMapNode (u :: vtail ++ more) = false := by
    cases u <;> first | rfl | cases hu
  have hblockValue : blockValue (fuel + 1) p (.value :: (u :: vtail ++ more)) = .ok (n, more, p) := by
    rw [blockValue, hvstart, if_neg Bool.false_ne_true]
    exact hn
  refine ⟨(.scalar tag text, n) :: ns, ?_, fun depth => ?_⟩
  · rw [blockEntries.eq_def]
    dsimp only
    rw [hstart, if_neg Bool.false_ne_true]
    exact Except.bind_eq_ok_iff.mpr ⟨_, hknode, Except.bind_eq_ok_iff.mpr ⟨_, hblockValue,
      Except.bind_eq_ok_iff.mpr ⟨_, hns, rfl⟩⟩⟩
  · have hmerge : (Node.scalar tag text).tag ≠ .merge := by
      rintro ⟨⟩
      cases htag
    have hplain : Node.keyTag tag = tag := by
      rw [Node.keyTag, if_neg]
      rintro rfl
      cases htag
    rw [Node.entryValues.eq_def]
    dsimp only
    rw [if_neg hmerge, hplain, textValue_of_isScalar htag hscalar, hvalues, hentries,
      MapContent.addEntry, hk.isKey]
    rfl

theorem YieldsKey.lastEntry {kts vts : List Token} {k v : Value} (hk : YieldsKey kts k)
    (hv : YieldsNode true vts v) :
    YieldsBlockEntries (.key :: (kts ++ .value :: vts)) [(k, v)] := by
  intro fuel p rest hfuel hp
  obtain ⟨fuel, rfl⟩ := Nat.exists_eq_add_of_le' (Nat.le_trans (Nat.le_add_left 1 _) hfuel)
  rw [List.length_cons, List.length_append, List.length_cons] at hfuel
  obtain ⟨less, rfl⟩ := Nat.exists_eq_add_of_le' (by omega : 1 ≤ fuel)
  rw [List.cons_append, List.append_assoc, List.cons_append]
  refine blockEntries_cons hk hv hp (by omega) (by omega) (by nofun) ⟨[], ?_, fun _ => rfl⟩
  rw [blockEntries]

theorem YieldsKey.moreEntries {kts vts more : List Token} {k v : Value}
    {entries : List (Value × Value)} (hk : YieldsKey kts k) (hv : YieldsNode true vts v)
    (hmore : YieldsBlockEntries more entries) (hhead : more.head? = some .key) :
    YieldsBlockEntries (.key :: (kts ++ .value :: (vts ++ more))) ((k, v) :: entries) := by
  intro fuel p rest hfuel hp
  obtain ⟨fuel, rfl⟩ := Nat.exists_eq_add_of_le' (Nat.le_trans (Nat.le_add_left 1 _) hfuel)
  rw [List.length_cons, List.length_append, List.length_cons, List.length_append] at hfuel
  rw [List.cons_append, List.append_assoc, List.cons_append, List.append_assoc]
  refine blockEntries_cons hk hv hp (by omega) (by omega) ?_ (hmore fuel p rest (by omega) hp)
  rw [List.head?_append, hhead]
  nofun

/-- A mapping in which no key occurs twice. -/
theorem YieldsBlockEntries.map {ts : List Token} {entries : List (Value × Value)}
    (h : YieldsBlockEntries ts entries) (hdistinct : Value.mapping entries = .map entries)
    (flat : Bool) : YieldsNode flat (.blockMapStart :: (ts ++ [.blockEnd])) (.map entries) where
  begins := ⟨_, _, rfl, rfl⟩
  parses fuel p rest hfuel hp _ := by
    rw [List.length_cons, List.length_append, List.length_singleton] at hfuel
    obtain ⟨fuel, rfl⟩ := Nat.exists_eq_add_of_le' (Nat.le_trans (by omega : 3 ≤ _) hfuel)
    obtain ⟨ns, hns, hentries⟩ := h fuel p rest (by omega) hp
    rw [List.cons_append, List.append_assoc, List.singleton_append]
    refine ⟨.map .map ns, node_eq rfl ?_, fun depth => ?_⟩
    · rw [content.eq_def]
      dsimp only
      rw [blockContent.eq_def]
      exact Except.bind_eq_ok_iff.mpr ⟨_, hns, rfl⟩
    · rw [Node.value, hentries, ← hdistinct]
      rfl

/-! ## Scalars and empty brackets -/

/-- A text of one token. -/
theorem yieldsKey_scalar {plain : Bool} {text : String} {v : Value} (hkey : v.isKey = true)
    (htag : (if plain then Tag.ofPlain text else .text).isScalar = true)
    (h : Scalar.value (if plain then Tag.ofPlain text else .text) text = .ok v) :
    YieldsKey [.scalar plain text] v where
  begins := ⟨_, _, rfl, rfl⟩
  isKey := hkey
  parses flat fuel p rest hfuel _ :=
    ⟨_, _, node_scalar (Nat.le_trans (by omega) hfuel) p text rest, htag, h⟩

theorem yieldsNode_emptyList (flat : Bool) :
    YieldsNode flat [.flowListStart, .flowListEnd] (.list []) where
  begins := ⟨_, _, rfl, rfl⟩
  parses fuel p rest hfuel _ _ :=
    (yields_list yieldsItems_nil).parses true flat fuel p rest (Nat.le_of_add_right_le hfuel)

theorem yieldsNode_emptyMap (flat : Bool) :
    YieldsNode flat [.flowMapStart, .flowMapEnd] (.map []) where
  begins := ⟨_, _, rfl, rfl⟩
  parses fuel p rest hfuel _ _ :=
    (yields_map yieldsEntries_nil).parses true flat fuel p rest (Nat.le_of_add_right_le hfuel)

end DocSchema.Yaml.Parser
