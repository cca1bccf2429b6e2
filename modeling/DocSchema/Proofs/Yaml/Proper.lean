import DocSchema.Proofs.Assoc
import DocSchema.Proofs.Except
import DocSchema.Proofs.Number.Nearest
import DocSchema.Proofs.Yaml.Timestamps
import DocSchema.Yaml.Reader

/-!
# Values that are read

Not every value can be read from a text. The numbers of a document have been rounded, its dates are
dates of the calendar, and the keys of each of its mappings differ.

## Main definitions

* `Value.Proper`: the values that can be read

## Main results

* `proper_of_read`: what is read is one of them
-/

namespace DocSchema

open Number (Binary64 Dyadic)

/-- A value with numbers in lowest form, with dates and times in their ranges, and with mappings in
which no key occurs twice. -/
inductive Value.Proper : Value → Prop
  | null : Proper null
  | bool (b : Bool) : Proper (bool b)
  | int (n : Int) : Proper (int n)
  | float {x : Binary64} : x.Canonical → Proper (float x)
  | text (s : String) : Proper (text s)
  | date {d : Date} : d.fault? = none → Proper (date d)
  | datetime {t : DateTime} : t.Proper → Proper (datetime t)
  | bytes (content : List UInt8) : Proper (bytes content)
  | list {items : List Value} : (∀ v ∈ items, Proper v) → Proper (list items)
  | tuple {items : List Value} : (∀ v ∈ items, Proper v) → Proper (tuple items)
  | set {items : List Value} : (∀ v ∈ items, Proper v) → Proper (set items)
  | map {entries : List (Value × Value)} : Assoc.Distinct sameKey entries →
    (∀ e ∈ entries, Proper e.1) → (∀ e ∈ entries, Proper e.2) → Proper (map entries)

/-- A mapping with different keys is put together to itself. -/
theorem Value.Proper.mapping_eq {entries : List (Value × Value)}
    (h : (Value.map entries).Proper) :
    mapping entries = .map entries := by
  cases h with
  | map hdistinct => rw [mapping, Assoc.ofList_of_distinct hdistinct]

/-! ## Scalars -/

namespace Number.Binary64

theorem canonical_of_parse? {cs : List Char} {x : Binary64} (h : parse? cs = some x) :
    x.Canonical := by
  rw [parse?] at h
  dsimp only at h
  split_ifs at h with hinf hnan
  · cases h
    rintro _ _ ⟨⟩
  · cases h
    rintro _ _ ⟨⟩
  · rw [parseMagnitude?] at h
    dsimp only at h
    split_ifs at h with hempty
    obtain ⟨exponent, -, rfl⟩ := Option.map_eq_some_iff.mp h
    exact canonical_ofDecimal _ _ _

theorem digitsValue_lt {cs : List Char} (h : ∀ c ∈ cs, c.isDigit = true) :
    digitsValue cs < 10 ^ cs.length := by
  induction cs using List.reverseRecOn with
  | nil => exact Nat.one_pos
  | append_singleton cs c ih =>
    obtain ⟨hcs, hc⟩ := List.forall_mem_append.mp h
    have hdigit := hc c (List.mem_singleton_self c)
    rw [Char.isDigit_iff_toNat] at hdigit
    have hrange : c.toNat - '0'.toNat ≤ 9 := Nat.sub_le_sub_right hdigit.2 _
    have hlt := ih hcs
    rw [digitsValue, List.foldl_append, List.foldl_cons, List.foldl_nil, ← digitsValue,
      List.length_append, List.length_singleton, Nat.pow_succ]
    omega

end Number.Binary64

namespace Yaml

namespace Scalar

theorem canonical_decimal {cs : List Char} {x : Binary64} (h : decimal cs = .ok x) :
    x.Canonical := by
  rw [decimal] at h
  split at h
  · cases h
    exact Binary64.canonical_of_parse? ‹_›
  · cases h

theorem canonical_add (x y : Binary64) : (add x y).Canonical := by
  cases x with
  | nan => nofun
  | infinite negative =>
    cases y with
    | nan => nofun
    | infinite negative' =>
      rw [add]
      split_ifs <;> nofun
    | finite negative' b => nofun
  | finite negative a =>
    cases y with
    | nan => nofun
    | infinite negative' => nofun
    | finite negative' b =>
      exact Binary64.canonical_ofRatio _ _ (Nat.mul_pos a.ratio_value.1 b.ratio_value.1)

/-- A sum of digits is rounded after each of them. -/
theorem canonical_sexagesimalFloat {sum : Binary64} (h : sum.Canonical) (factor : Nat)
    (digits : List Binary64) : (sexagesimalFloat sum factor digits).Canonical := by
  induction digits generalizing sum factor with
  | nil => exact h
  | cons x digits ih => exact ih (canonical_add _ _) _

theorem canonical_unsignedFloat {cs : List Char} {x : Binary64} (h : unsignedFloat cs = .ok x) :
    x.Canonical := by
  rw [unsignedFloat] at h
  split_ifs at h
  · cases h
    rintro _ _ ⟨⟩
  · cases h
    rintro _ _ ⟨⟩
  · obtain ⟨digits, -, h⟩ := Except.bind_eq_ok_iff.mp h
    cases h
    exact canonical_sexagesimalFloat (Binary64.canonical_ofRatio _ _ Nat.one_pos) 1 _
  · exact canonical_decimal h

theorem canonical_float {text : String} {x : Binary64} (h : float text = .ok x) :
    x.Canonical := by
  rw [float] at h
  split at h
  · cases h
  · obtain ⟨y, hy, rfl⟩ := Except.map_eq_ok_iff.mp h
    exact (canonical_unsignedFloat hy).neg
  · exact canonical_unsignedFloat h
  · exact canonical_unsignedFloat h

/-- The fraction of a second is a run of digits. -/
theorem isDigit_fraction {cs : List Char} {clock : ClockParts}
    (h : Timestamp.clock? cs = some clock) : ∀ c ∈ clock.fraction, c.isDigit = true := by
  simp only [Timestamp.clock?, Option.bind_eq_bind, Option.bind_eq_some_iff, Option.pure_def,
    Option.some.injEq] at h
  obtain ⟨_, -, _, -, _, -, _, -, _, -, _, -, rfl⟩ := h
  dsimp only
  split
  · exact fun c hc => List.mem_takeWhile_imp hc
  · exact fun c hc => absurd hc List.not_mem_nil

theorem exists_clock {cs : List Char} {t : Timestamp} {clock : ClockParts}
    (h : Timestamp.parse? cs = some t) (hclock : t.clock = some clock) :
    ∃ rest, Timestamp.clock? rest = some clock := by
  simp only [Timestamp.parse?, Option.bind_eq_bind, Option.bind_eq_some_iff, Option.pure_def,
    Option.some.injEq] at h
  obtain ⟨_, -, _, -, _, -, _, -, ⟨_, rest⟩, -, part, hpart, rfl⟩ := h
  cases hclock
  cases rest with
  | nil => cases hpart
  | cons c rest =>
    rw [Timestamp.clockPart?] at hpart
    split_ifs at hpart
    · obtain ⟨_, hfound, ⟨⟩⟩ := Option.map_eq_some_iff.mp hpart
      exact ⟨_, hfound⟩
    · obtain ⟨_, hfound, ⟨⟩⟩ := Option.map_eq_some_iff.mp hpart
      exact ⟨_, hfound⟩

/-- Six digits of a fraction, filled up with zeros. -/
theorem microseconds_lt {fraction : List Char} (h : ∀ c ∈ fraction, c.isDigit = true) :
    Timestamp.microseconds fraction < 1000000 := by
  have hdigits : ∀ c ∈ (fraction ++ List.replicate 6 '0').take 6, c.isDigit = true := by
    intro c hc
    obtain hc | hc := List.mem_append.mp (List.mem_of_mem_take hc)
    · exact h c hc
    · rw [List.eq_of_mem_replicate hc]
      rfl
  have hlength : ((fraction ++ List.replicate 6 '0').take 6).length = 6 := by
    rw [List.length_take, List.length_append, List.length_replicate]
    omega
  have hlt := Binary64.digitsValue_lt hdigits
  rwa [hlength] at hlt

/-- A zone is written in whole minutes. -/
theorem natAbs_zoneSeconds_mod (zone : ZoneParts) : (Timestamp.zoneSeconds zone).natAbs % 60 = 0 := by
  cases zone with
  | universal => rfl
  | offset negative hours minutes =>
    rw [Timestamp.zoneSeconds]
    split_ifs <;> omega

theorem proper_timestamp {text : String} {v : Value} (h : timestamp text = .ok v) : v.Proper := by
  rw [timestamp] at h
  dsimp only at h
  split at h
  · cases h
  rename_i t hparse
  split at h
  · split at h
    · cases h
    · cases h
      exact .date ‹_›
  rename_i clock hclock
  split at h
  · cases h
  · cases h
    obtain ⟨_, hfound⟩ := exists_clock hparse hclock
    refine .datetime ⟨‹_›, microseconds_lt (isDigit_fraction hfound), fun seconds hseconds => ?_⟩
    obtain ⟨zone, -, rfl⟩ := Option.map_eq_some_iff.mp hseconds
    exact natAbs_zoneSeconds_mod zone

theorem proper_value {tag : Tag} {text : String} {v : Value} (h : value tag text = .ok v) :
    v.Proper := by
  cases tag with
  | null =>
    cases h
    exact .null
  | text =>
    cases h
    exact .text text
  | bool =>
    rw [value, Except.mapError_eq_ok_iff, Except.map_eq_ok_iff] at h
    obtain ⟨b, -, rfl⟩ := h
    exact .bool b
  | int =>
    rw [value, Except.mapError_eq_ok_iff, Except.map_eq_ok_iff] at h
    obtain ⟨n, -, rfl⟩ := h
    exact .int n
  | float =>
    rw [value, Except.mapError_eq_ok_iff, Except.map_eq_ok_iff] at h
    obtain ⟨x, hx, rfl⟩ := h
    exact .float (canonical_float hx)
  | timestamp =>
    rw [value, Except.mapError_eq_ok_iff] at h
    exact proper_timestamp h
  | binary =>
    rw [value, Except.mapError_eq_ok_iff, Except.map_eq_ok_iff] at h
    obtain ⟨content, -, rfl⟩ := h
    exact .bytes content
  | list => cases h
  | map => cases h
  | set => cases h
  | pairs => cases h
  | merge => cases h
  | mainValue => cases h
  | other name => cases h

end Scalar

/-! ## Nodes -/

/-- The entries of a mapping, taken over and own ones, are proper values. -/
structure MapContent.Proper (m : MapContent) : Prop where
  merged : ∀ e ∈ m.merged, e.1.Proper ∧ e.2.Proper
  own : ∀ e ∈ m.own, e.1.Proper ∧ e.2.Proper

theorem MapContent.Proper.entries {m : MapContent} (h : m.Proper) :
    ∀ e ∈ m.entries, e.1.Proper ∧ e.2.Proper :=
  List.forall_mem_append.mpr ⟨h.merged, h.own⟩

theorem MapContent.proper_empty : MapContent.empty.Proper := ⟨nofun, nofun⟩

theorem MapContent.Proper.takeOver {source m : MapContent} (hsource : source.Proper)
    (h : m.Proper) : (source.takeOver m).Proper :=
  ⟨List.forall_mem_append.mpr ⟨hsource.entries, h.merged⟩, h.own⟩

theorem MapContent.Proper.addEntry {key value : Value × Faults} {m : MapContent} (h : m.Proper)
    (hkey : key.1.Proper) (hvalue : value.1.Proper) (depth : Nat) :
    (m.addEntry key value depth).Proper :=
  ⟨h.merged, List.forall_mem_cons.mpr ⟨⟨hkey, hvalue⟩, h.own⟩⟩

/-- A mapping is put together from its entries. -/
theorem MapContent.Proper.mapping {m : MapContent} (h : m.Proper) : (Value.mapping m.entries).Proper :=
  have hentries := @Assoc.forall_mem_ofList _ _ Value.sameKey _ _ _ h.entries
  .map (Assoc.distinct_ofList _) (fun e he => (hentries e he).1) fun e he => (hentries e he).2

namespace Node

theorem proper_misfit (depth : Nat) (p : Problem) : (misfit depth p).1.Proper := .list nofun

theorem proper_scalarValue (depth : Nat) (tag : Tag) (text : Option String) :
    (scalarValue depth tag text).1.Proper := by
  cases text with
  | none => exact .null
  | some text =>
    rw [scalarValue]
    split
    · exact Scalar.proper_value ‹_›
    · exact .null

theorem proper_textValue (depth : Nat) (tag : Tag) (text : String) :
    (textValue depth tag text).1.Proper := by
  rw [textValue.eq_def]
  split
  · exact proper_misfit (depth + 1) .shape
  · exact proper_misfit (depth + 1) .shape
  · exact proper_misfit (depth + 1) .shape
  · exact proper_misfit (depth + 1) .shape
  · exact proper_scalarValue depth tag (some text)

mutual

theorem proper_value (depth : Nat) : ∀ n : Node, (n.value depth).1.Proper
  | .scalar tag text => proper_textValue depth tag text
  | .list tag items => by
    rw [value.eq_def]
    dsimp only
    split
    · exact .list (proper_itemValues (depth + 1) items)
    · exact .list (proper_pairs (depth + 1) items)
    · exact proper_misfit (depth + 1) .shape
    · exact proper_misfit (depth + 1) .shape
    · exact proper_misfit depth _
  | .map tag entries => by
    have hentries := (proper_entryValues (depth + 1) entries).mapping
    rw [value.eq_def]
    dsimp only
    split
    · exact hentries
    · cases hentries with
      | map _ hkeys => exact .set (List.forall_mem_map.mpr hkeys)
    · exact proper_misfit (depth + 1) .shape
    · exact proper_misfit (depth + 1) .shape
    · split_ifs
      · exact proper_scalarValue depth tag _
      · exact proper_misfit depth .unknownTag

theorem proper_itemValues (depth : Nat) : ∀ items : List Node,
    ∀ v ∈ (itemValues depth items).1, v.Proper
  | [] => nofun
  | n :: items =>
    List.forall_mem_cons.mpr ⟨proper_value depth n, proper_itemValues depth items⟩

theorem proper_pairs (depth : Nat) : ∀ items : List Node, ∀ v ∈ (pairs depth items).1, v.Proper
  | [] => nofun
  | .map _ [(k, v)] :: items => by
    rw [pairs]
    exact List.forall_mem_cons.mpr ⟨.tuple (List.forall_mem_cons.mpr ⟨proper_value depth k,
      List.forall_mem_singleton.mpr (proper_value depth v)⟩), proper_pairs depth items⟩
  | .map _ [] :: items => proper_pairs depth items
  | .map _ (_ :: _ :: _) :: items => proper_pairs depth items
  | .list _ _ :: items => proper_pairs depth items
  | .scalar _ _ :: items => proper_pairs depth items

theorem proper_entryValues (depth : Nat) : ∀ entries : List (Node × Node),
    (entryValues depth entries).Proper
  | [] => MapContent.proper_empty
  | (k, v) :: rest => by
    have hmore := proper_entryValues depth rest
    rw [entryValues.eq_def]
    dsimp only
    split_ifs with hmerge
    · cases v with
      | map _ inner => exact (proper_entryValues depth inner).takeOver hmore
      | list _ sources => exact (proper_sourceValues depth sources).takeOver hmore
      | scalar _ _ => exact ⟨hmore.merged, hmore.own⟩
    · refine hmore.addEntry ?_ (proper_value depth v) depth
      cases k with
      | scalar tag text => exact proper_textValue depth _ text
      | list tag items => exact proper_value depth (.list tag items)
      | map tag entries => exact proper_value depth (.map tag entries)

theorem proper_sourceValues (depth : Nat) : ∀ sources : List Node,
    (sourceValues depth sources).Proper
  | [] => MapContent.proper_empty
  | .map _ inner :: rest =>
    ⟨List.forall_mem_append.mpr ⟨(proper_sourceValues depth rest).merged,
      (proper_entryValues depth inner).entries⟩, nofun⟩
  | .list _ _ :: rest => ⟨(proper_sourceValues depth rest).merged,
      (proper_sourceValues depth rest).own⟩
  | .scalar _ _ :: rest => ⟨(proper_sourceValues depth rest).merged,
      (proper_sourceValues depth rest).own⟩

end

end Node

/-- What is read is a proper value. -/
theorem proper_of_read {text : String} {v : Value} (h : read text = .ok v) : v.Proper := by
  obtain ⟨ts, -, h⟩ := Except.bind_eq_ok_iff.mp h
  obtain ⟨n, -, h⟩ := Except.bind_eq_ok_iff.mp h
  cases n with
  | none =>
    cases h
    exact .null
  | some n =>
    have hproper := Node.proper_value 0 n
    change n.toValue = _ at h
    rw [Node.toValue] at h
    dsimp only at h
    split at h
    · cases h
    · cases h
      exact hproper

end Yaml

end DocSchema
