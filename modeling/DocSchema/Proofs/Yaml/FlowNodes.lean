import DocSchema.Proofs.Except
import DocSchema.Yaml.Reader

/-!
# Nodes between brackets

What the tokens of a value between brackets are parsed to, whatever follows them. The parser does
not look at what comes after a node, so the statements are about tokens with any tokens behind
them. The fuel is four steps a token, of which a node takes two and an entry the others.

## Main definitions

* `Yields`: tokens are parsed to a node of a value
* `YieldsItems`, `YieldsEntries`: the same of what stands between brackets

## Main results

* `yields_scalar`, `yields_list`, `yields_map`
-/

namespace DocSchema.Yaml

namespace Parser

/-- A token that starts a node between brackets which has no properties. -/
def startsNode : Token → Bool
  | .scalar _ _ => true
  | .flowListStart => true
  | .flowMapStart => true
  | _ => false

/-- Tokens that are parsed to a node of a value without faults, whatever follows. -/
structure Yields (ts : List Token) (v : Value) : Prop where
  starts : ∃ t rest, ts = t :: rest ∧ startsNode t = true
  parses : ∀ (block flat : Bool) (fuel : Nat) (p : Parser) (rest : List Token),
    4 * ts.length ≤ fuel →
      ∃ n, node block flat fuel p (ts ++ rest) = .ok (n, rest, p) ∧ ∀ depth, n.value depth = (v, [])

/-- A token that is neither a property of a node nor an alias. -/
def isBare : Token → Bool
  | .reference _ => false
  | .anchor _ => false
  | .tag _ => false
  | _ => true

/-- A node without properties is its content. -/
theorem node_eq {block flat : Bool} {fuel : Nat} {p : Parser} {t : Token} {ts rest : List Token}
    {n : Node} (ht : isBare t = true)
    (h : content block flat {} fuel p (t :: ts) = .ok (n, rest, p)) :
    node block flat (fuel + 1) p (t :: ts) = .ok (n, rest, p) := by
  have hprops : p.properties (t :: ts) = .ok ({}, t :: ts) := by
    cases t <;> first | rfl | cases ht
  rw [node.eq_def]
  -- the token is no reference, so its properties are read and then its content
  cases t <;> first
    | exact Except.bind_eq_ok_iff.mpr ⟨_, hprops, Except.bind_eq_ok_iff.mpr ⟨p, rfl,
        Except.bind_eq_ok_iff.mpr ⟨_, h, rfl⟩⟩⟩
    | cases ht

/-! ## Scalars -/

theorem node_scalar {block flat plain : Bool} {fuel : Nat} (hfuel : 2 ≤ fuel) (p : Parser)
    (text : String) (rest : List Token) :
    node block flat fuel p (.scalar plain text :: rest) =
      .ok (.scalar (if plain then Tag.ofPlain text else .text) text, rest, p) := by
  obtain ⟨fuel, rfl⟩ := Nat.exists_eq_add_of_le' hfuel
  exact node_eq rfl (by rw [content]; rfl)

theorem yields_scalar {plain : Bool} {text : String} {v : Value}
    (h : ∀ depth, Node.textValue depth (if plain then Tag.ofPlain text else .text) text = (v, [])) :
    Yields [.scalar plain text] v where
  starts := ⟨_, [], rfl, rfl⟩
  parses _ _ _ p rest hfuel :=
    ⟨_, node_scalar (Nat.le_trans (Nat.le_add_left 2 2) hfuel) p text rest, h⟩

/-! ## Lists -/

/-- Nothing separates the first entry from its opening bracket. -/
theorem skipComma_first (close t : Token) (ts : List Token) :
    skipComma close true (t :: ts) = .ok (t :: ts) := by
  rw [skipComma, Bool.or_true, if_pos rfl]

/-- Tokens that are parsed to the items of a list, up to its closing bracket. -/
def YieldsItems (ts : List Token) (vs : List Value) : Prop :=
  ∀ (isFirst : Bool) (fuel : Nat) (p : Parser) (before rest : List Token),
    4 * ts.length + 1 ≤ fuel →
    skipComma .flowListEnd isFirst before = .ok (ts ++ .flowListEnd :: rest) →
      ∃ ns, flowItems isFirst fuel p before = .ok (ns, rest, p) ∧
        ∀ depth, Node.itemValues depth ns = (vs, [])

theorem yieldsItems_nil : YieldsItems [] [] := by
  intro isFirst fuel p before rest hfuel hcomma
  obtain ⟨fuel, rfl⟩ := Nat.exists_eq_add_of_le' hfuel
  refine ⟨[], ?_, fun depth => rfl⟩
  rw [flowItems.eq_def]
  exact Except.bind_eq_ok_iff.mpr ⟨_, hcomma, rfl⟩

/-- One more item in front of others that are parsed behind it. -/
theorem flowItems_cons {ts more rest : List Token} {v : Value} {vs : List Value}
    (h : Yields ts v) {isFirst : Bool} {fuel : Nat} {p : Parser} {before : List Token}
    (hfuel : 4 * ts.length ≤ fuel)
    (hcomma : skipComma .flowListEnd isFirst before = .ok (ts ++ more))
    (hmore : ∃ ns, flowItems false fuel p more = .ok (ns, rest, p) ∧
      ∀ depth, Node.itemValues depth ns = (vs, [])) :
    ∃ ns, flowItems isFirst (fuel + 1) p before = .ok (ns, rest, p) ∧
      ∀ depth, Node.itemValues depth ns = (v :: vs, []) := by
  obtain ⟨n, hn, hvalue⟩ := h.parses false false fuel p more hfuel
  obtain ⟨ns, hns, hvalues⟩ := hmore
  obtain ⟨t, tail, rfl, ht⟩ := h.starts
  refine ⟨n :: ns, ?_, fun depth => ?_⟩
  · rw [flowItems.eq_def]
    refine Except.bind_eq_ok_iff.mpr ⟨_, hcomma, ?_⟩
    cases t <;> first
      | exact Except.bind_eq_ok_iff.mpr ⟨_, hn, Except.bind_eq_ok_iff.mpr ⟨_, hns, rfl⟩⟩
      | cases ht
  · rw [Node.itemValues, hvalue, hvalues]
    rfl

theorem Yields.last {ts : List Token} {v : Value} (h : Yields ts v) : YieldsItems ts [v] := by
  intro isFirst fuel p before rest hfuel hcomma
  obtain ⟨fuel, rfl⟩ := Nat.exists_eq_add_of_le' (Nat.le_trans (Nat.le_add_left 1 _) hfuel)
  refine flowItems_cons h (by omega) hcomma ?_
  obtain ⟨t, tail, rfl, -⟩ := h.starts
  rw [List.length_cons] at hfuel
  exact yieldsItems_nil false fuel p _ rest (by rw [List.length_nil]; omega) rfl

theorem Yields.more {ts more : List Token} {v : Value} {vs : List Value} (h : Yields ts v)
    (hmore : YieldsItems more vs) : YieldsItems (ts ++ .comma :: more) (v :: vs) := by
  intro isFirst fuel p before rest hfuel hcomma
  obtain ⟨fuel, rfl⟩ := Nat.exists_eq_add_of_le' (Nat.le_trans (Nat.le_add_left 1 _) hfuel)
  rw [List.length_append, List.length_cons] at hfuel
  rw [List.append_assoc, List.cons_append] at hcomma
  exact flowItems_cons h (by omega) hcomma (hmore false fuel p _ rest (by omega) rfl)

theorem yields_list {ts : List Token} {vs : List Value} (h : YieldsItems ts vs) :
    Yields (.flowListStart :: (ts ++ [.flowListEnd])) (.list vs) where
  starts := ⟨_, _, rfl, rfl⟩
  parses block flat fuel p rest hfuel := by
    rw [List.length_cons, List.length_append, List.length_singleton] at hfuel
    obtain ⟨fuel, rfl⟩ := Nat.exists_eq_add_of_le' (Nat.le_trans (by omega : 2 ≤ _) hfuel)
    obtain ⟨ns, hns, hvalues⟩ := h true fuel p (ts ++ .flowListEnd :: rest) rest (by omega) (by
      cases ts <;> exact skipComma_first _ _ _)
    rw [List.cons_append, List.append_assoc, List.singleton_append]
    refine ⟨.list .list ns, node_eq rfl ?_, fun depth => ?_⟩
    · rw [content]
      exact Except.bind_eq_ok_iff.mpr ⟨_, hns, rfl⟩
    · rw [Node.value, hvalues]

/-! ## Mappings -/

/-- Tokens that are parsed to the entries of a mapping with text keys, up to its closing brace. -/
def YieldsEntries (ts : List Token) (entries : List (String × Value)) : Prop :=
  ∀ (isFirst : Bool) (fuel : Nat) (p : Parser) (before rest : List Token),
    4 * ts.length + 1 ≤ fuel →
    skipComma .flowMapEnd isFirst before = .ok (ts ++ .flowMapEnd :: rest) →
      ∃ ns, flowEntries isFirst fuel p before = .ok (ns, rest, p) ∧
        ∀ depth, Node.entryValues depth ns =
          { own := entries.map fun (key, value) => (.text key, value) }

theorem yieldsEntries_nil : YieldsEntries [] [] := by
  intro isFirst fuel p before rest hfuel hcomma
  obtain ⟨fuel, rfl⟩ := Nat.exists_eq_add_of_le' hfuel
  refine ⟨[], ?_, fun depth => rfl⟩
  rw [flowEntries.eq_def]
  exact Except.bind_eq_ok_iff.mpr ⟨_, hcomma, rfl⟩

/-- One more entry in front of others that are parsed behind it. -/
theorem flowEntries_cons {ts more rest : List Token} {key : String} {v : Value}
    {entries : List (String × Value)} (h : Yields ts v) {isFirst : Bool} {fuel : Nat} {p : Parser}
    {before : List Token} (hfuel : 4 * ts.length + 1 ≤ fuel)
    (hcomma : skipComma .flowMapEnd isFirst before =
      .ok (.key :: .scalar false key :: .value :: (ts ++ more)))
    (hmore : ∃ ns, flowEntries false fuel p more = .ok (ns, rest, p) ∧
      ∀ depth, Node.entryValues depth ns =
        { own := entries.map fun (key, value) => (.text key, value) }) :
    ∃ ns, flowEntries isFirst (fuel + 1) p before = .ok (ns, rest, p) ∧
      ∀ depth, Node.entryValues depth ns =
        { own := ((key, v) :: entries).map fun (key, value) => (.text key, value) } := by
  obtain ⟨fuel, rfl⟩ := Nat.exists_eq_add_of_le' (Nat.le_trans (Nat.le_add_left 1 _) hfuel)
  obtain ⟨n, hn, hvalue⟩ := h.parses false false fuel p more (by omega)
  obtain ⟨ns, hns, hentries⟩ := hmore
  obtain ⟨t, tail, rfl, ht⟩ := h.starts
  have hkey : node false false (fuel + 1) p (.scalar false key :: .value :: (t :: tail ++ more)) =
      .ok (.scalar .text key, .value :: (t :: tail ++ more), p) :=
    node_scalar (by rw [List.length_cons] at hfuel; omega) p key _
  have hflowValue : flowValue .flowMapEnd (fuel + 1) p (.value :: (t :: tail ++ more)) =
      .ok (n, more, p) := by
    rw [flowValue]
    cases t <;> first | exact hn | cases ht
  refine ⟨(.scalar .text key, n) :: ns, ?_, fun depth => ?_⟩
  · rw [flowEntries.eq_def]
    refine Except.bind_eq_ok_iff.mpr ⟨_, hcomma, ?_⟩
    exact Except.bind_eq_ok_iff.mpr ⟨_, hkey, Except.bind_eq_ok_iff.mpr ⟨_, hflowValue,
      Except.bind_eq_ok_iff.mpr ⟨_, hns, rfl⟩⟩⟩
  · rw [Node.entryValues.eq_def]
    dsimp only
    rw [hvalue, hentries]
    rfl

theorem Yields.lastEntry {ts : List Token} {v : Value} (h : Yields ts v) (key : String) :
    YieldsEntries (.key :: .scalar false key :: .value :: ts) [(key, v)] := by
  intro isFirst fuel p before rest hfuel hcomma
  obtain ⟨fuel, rfl⟩ := Nat.exists_eq_add_of_le' (Nat.le_trans (Nat.le_add_left 1 _) hfuel)
  simp only [List.length_cons] at hfuel
  refine flowEntries_cons h (by omega) hcomma ?_
  exact yieldsEntries_nil false fuel p _ rest (by rw [List.length_nil]; omega) rfl

theorem Yields.moreEntries {ts more : List Token} {v : Value} {entries : List (String × Value)}
    (h : Yields ts v) (key : String) (hmore : YieldsEntries more entries) :
    YieldsEntries ((.key :: .scalar false key :: .value :: ts) ++ .comma :: more)
      ((key, v) :: entries) := by
  intro isFirst fuel p before rest hfuel hcomma
  obtain ⟨fuel, rfl⟩ := Nat.exists_eq_add_of_le' (Nat.le_trans (Nat.le_add_left 1 _) hfuel)
  simp only [List.length_append, List.length_cons] at hfuel
  rw [List.append_assoc, List.cons_append] at hcomma
  exact flowEntries_cons h (by omega) hcomma (hmore false fuel p _ rest (by omega) rfl)

theorem yields_map {ts : List Token} {entries : List (String × Value)}
    (h : YieldsEntries ts entries) :
    Yields (.flowMapStart :: (ts ++ [.flowMapEnd]))
      (.mapping (entries.map fun (key, value) => (.text key, value))) where
  starts := ⟨_, _, rfl, rfl⟩
  parses block flat fuel p rest hfuel := by
    rw [List.length_cons, List.length_append, List.length_singleton] at hfuel
    obtain ⟨fuel, rfl⟩ := Nat.exists_eq_add_of_le' (Nat.le_trans (by omega : 2 ≤ _) hfuel)
    obtain ⟨ns, hns, hentries⟩ := h true fuel p (ts ++ .flowMapEnd :: rest) rest (by omega) (by
      cases ts <;> exact skipComma_first _ _ _)
    rw [List.cons_append, List.append_assoc, List.singleton_append]
    refine ⟨.map .map ns, node_eq rfl ?_, fun depth => ?_⟩
    · rw [content]
      exact Except.bind_eq_ok_iff.mpr ⟨_, hns, rfl⟩
    · rw [Node.value, hentries]
      rfl

end Parser

end DocSchema.Yaml
