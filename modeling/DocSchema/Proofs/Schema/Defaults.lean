import DocSchema.Proofs.Assoc
import DocSchema.Proofs.Json.Values
import DocSchema.Proofs.Schema.Outline
import Mathlib.Data.List.Forall2

/-!
# Normal forms of defaults

A default may be any value of a document, and it is stored in its normal form as JSON. Dates become
texts, tuples become lists, and keys become the texts that they are displayed as. Two keys may be
displayed alike, such as a number and its digits; they become one, in the place of the first and with
the value of the last.

A value has no normal form if it holds bytes or a set at any depth. That it would be lost, because
its key is displayed like a later one, does not matter: every value is looked at before any is
dropped.

`HasNormalForm` says what the normal form is without saying how it is come by: of a mapping it gives
the keys as a whole, and the value of each key by itself. The way through a value is that of its
outline, so the first fault in it is known already; this module shows that the places of the outline
are the nodes of the value.

## Main definitions

* `Value.IsNode`: the nodes of a value, those that will be dropped included
* `Value.HasNormalForm`: the normal form of a value

## Main results

* `Json.mem_places_iff`: the outline of a default lists its nodes
* `Json.hasNormalForm_of_ofValue`: a default is stored in its normal form
* `Json.ofValue_toValue`: a normal form is its own normal form
* `default_normalised`
-/

namespace DocSchema

/-! ## Nodes and their faults -/

/-- A value is a node of another one: the value itself, or a node of an item of a list or of a value
under a key. -/
inductive Value.IsNode (u : Value) : Value → Prop
  | self : IsNode u u
  | item {items : List Value} {v : Value} : v ∈ items → IsNode u v → IsNode u (.list items)
  | tupleItem {items : List Value} {v : Value} : v ∈ items → IsNode u v → IsNode u (.tuple items)
  | underKey {entries : List (Value × Value)} {e : Value × Value} :
    e ∈ entries → IsNode u e.2 → IsNode u (.map entries)

namespace Json

variable {u : Value}

mutual

/-- The outline of a default lists its nodes. -/
theorem mem_places_iff : ∀ (location : String) (v : Value),
    u ∈ (places location v).map Place.value ↔ u.IsNode v
  | location, .list items => by
    rw [places, List.map_cons, List.mem_cons, mem_placesOfItems_iff location 0 items]
    constructor
    · rintro (rfl | ⟨v, hv, hnode⟩)
      · exact .self
      · exact .item hv hnode
    · intro h
      cases h with
      | self => exact .inl rfl
      | item hv hnode => exact .inr ⟨_, hv, hnode⟩
  | location, .tuple items => by
    rw [places, List.map_cons, List.mem_cons, mem_placesOfItems_iff location 0 items]
    constructor
    · rintro (rfl | ⟨v, hv, hnode⟩)
      · exact .self
      · exact .tupleItem hv hnode
    · intro h
      cases h with
      | self => exact .inl rfl
      | tupleItem hv hnode => exact .inr ⟨_, hv, hnode⟩
  | location, .map entries => by
    rw [places, List.map_cons, List.mem_cons, mem_placesOfEntries_iff location entries]
    constructor
    · rintro (rfl | ⟨e, he, hnode⟩)
      · exact .self
      · exact .underKey he hnode
    · intro h
      cases h with
      | self => exact .inl rfl
      | underKey he hnode => exact .inr ⟨_, he, hnode⟩
  | _, .null | _, .bool _ | _, .int _ | _, .float _ | _, .text _ | _, .date _ | _, .datetime _
  | _, .bytes _ | _, .set _ => by
    refine List.mem_singleton.trans ⟨?_, fun h => ?_⟩
    · rintro rfl
      exact .self
    · cases h
      rfl

theorem mem_placesOfItems_iff : ∀ (location : String) (position : Nat) (items : List Value),
    u ∈ (placesOfItems location position items).map Place.value ↔ ∃ v ∈ items, u.IsNode v
  | _, _, [] => by simp [placesOfItems]
  | location, position, v :: items => by
    rw [placesOfItems, List.map_append, List.mem_append, List.exists_mem_cons_iff,
      mem_places_iff (itemLocation location position) v,
      mem_placesOfItems_iff location (position + 1) items]

theorem mem_placesOfEntries_iff : ∀ (location : String) (entries : List (Value × Value)),
    u ∈ (placesOfEntries location entries).map Place.value ↔ ∃ e ∈ entries, u.IsNode e.2
  | _, [] => by simp [placesOfEntries]
  | location, (key, v) :: entries => by
    rw [placesOfEntries, List.map_append, List.mem_append, List.exists_mem_cons_iff,
      mem_places_iff (memberLocation location key.display) v,
      mem_placesOfEntries_iff location entries]

end

end Json

/-! ## Normal forms -/

/-- The value of the last entry whose key is displayed as a text. -/
def Value.LastUnder (text : String) (v : Value) (entries : Entries) : Prop :=
  ∃ before key after, entries = before ++ (key, v) :: after ∧ key.display = text ∧
    ∀ e ∈ after, e.1.display ≠ text

/-- The normal form of a value. A mapping has each text that its keys are displayed as once, where
it first occurs, and with the normal form of the last value under it. -/
inductive Value.HasNormalForm : Value → Json → Prop
  | null : HasNormalForm .null .null
  | bool (b : Bool) : HasNormalForm (.bool b) (.bool b)
  | int (n : Int) : HasNormalForm (.int n) (.int n)
  | float (x : Number.Binary64) : HasNormalForm (.float x) (.float x)
  | text (s : String) : HasNormalForm (.text s) (.text s)
  | date (d : Date) : HasNormalForm (.date d) (.text d.iso)
  | datetime (t : DateTime) : HasNormalForm (.datetime t) (.text t.iso)
  | list {items : List Value} {js : List Json} : items.length = js.length →
    (∀ v j, (v, j) ∈ items.zip js → HasNormalForm v j) → HasNormalForm (.list items) (.list js)
  | tuple {items : List Value} {js : List Json} : items.length = js.length →
    (∀ v j, (v, j) ∈ items.zip js → HasNormalForm v j) → HasNormalForm (.tuple items) (.list js)
  | map {entries : Entries} {members : List (String × Json)} :
    members.map Prod.fst = (entries.map fun e => e.1.display).eraseDups →
    (∀ text j v, (text, j) ∈ members → LastUnder text v entries → HasNormalForm v j) →
    HasNormalForm (.map entries) (.object members)

namespace Value

/-- Every text that a key is displayed as has a last entry. -/
theorem exists_lastUnder {text : String} {entries : Entries}
    (h : text ∈ entries.map fun e => e.1.display) : ∃ v, LastUnder text v entries := by
  induction entries with
  | nil => cases h
  | cons e entries ih =>
    by_cases hrest : text ∈ entries.map fun e => e.1.display
    · obtain ⟨v, before, key, after, rfl, hkey, hafter⟩ := ih hrest
      exact ⟨v, e :: before, key, after, rfl, hkey, hafter⟩
    · obtain rfl : text = e.1.display := (List.mem_cons.mp h).resolve_right hrest
      refine ⟨e.2, [], e.1, entries, rfl, rfl, fun other hother heq => hrest ?_⟩
      exact List.mem_map.mpr ⟨other, hother, heq⟩

/-- No object of a normal form has two members of one key. -/
theorem HasNormalForm.wellKeyed {v : Value} {j : Json} (h : v.HasNormalForm j) : j.WellKeyed := by
  have hlist : ∀ {items : List Value} {js : List Json}, items.length = js.length →
      (∀ v j, (v, j) ∈ items.zip js → j.WellKeyed) → ∀ j ∈ js, j.WellKeyed := by
    intro items js hlength hall j hj
    rw [← List.map_snd_zip (Nat.le_of_eq hlength.symm)] at hj
    obtain ⟨⟨v, j⟩, hmem, rfl⟩ := List.mem_map.mp hj
    exact hall v j hmem
  induction h with
  | null => exact .null
  | bool b => exact .bool b
  | int n => exact .int n
  | float x => exact .float x
  | text s => exact .text s
  | date d => exact .text _
  | datetime t => exact .text _
  | list hlength _ ih => exact .list (hlist hlength ih)
  | tuple hlength _ ih => exact .list (hlist hlength ih)
  | map hkeys _ ih =>
    refine .object (hkeys ▸ Assoc.nodup_eraseDups _) fun ⟨key, j⟩ hmem => ?_
    have htext := List.mem_map_of_mem (f := Prod.fst) hmem
    rw [hkeys, List.mem_eraseDups] at htext
    obtain ⟨v, hlast⟩ := exists_lastUnder htext
    exact ih key j v hmem hlast

end Value

namespace Json

/-- The members that entries are read to have the texts of the keys and, one by one, the normal
forms of the values. So what is left of them is the normal form of the mapping. -/
theorem hasNormalForm_ofList {entries : Entries} {members : List (String × Json)}
    (h : List.Forall₂ (fun m e => e.1.display = m.1 ∧ e.2.HasNormalForm m.2) members entries) :
    (Value.map entries).HasNormalForm (.object (Assoc.ofList (· == ·) members)) := by
  have hkeys : ∀ {ms : List (String × Json)} {es : Entries},
      List.Forall₂ (fun m e => e.1.display = m.1 ∧ e.2.HasNormalForm m.2) ms es →
        ms.map Prod.fst = es.map fun e => e.1.display := by
    intro ms es hall
    rw [← List.forall₂_eq_eq_eq, List.forall₂_map_left_iff, List.forall₂_map_right_iff]
    exact hall.imp fun _ _ hentry => hentry.1.symm
  refine .map ((Assoc.map_fst_ofList members).trans (congrArg List.eraseDups (hkeys h))) ?_
  rintro text j v hmem ⟨before, key, after, rfl, rfl, hafter⟩
  -- the member that comes of the last entry is the last one with its key
  obtain ⟨m, back, ⟨hkey, hvalue⟩, hback, hdrop⟩ :=
    List.forall₂_cons_right_iff.mp (List.forall₂_drop_append members before _ h)
  rw [← List.take_append_drop before.length members, hdrop] at hmem
  have hlast : key.display ∉ back.map Prod.fst := by
    rw [hkeys hback, List.mem_map]
    rintro ⟨e, he, heq⟩
    exact hafter e he heq
  have hfound := Assoc.find?_eq_some_of_mem (Assoc.nodup_keys_ofList _) hmem
  rw [hkey] at hlast hfound
  rw [Assoc.find?_ofList_append hlast] at hfound
  obtain rfl := Option.some.inj hfound
  exact hvalue

mutual

/-- A default is stored in its normal form. -/
theorem hasNormalForm_of_ofValue : ∀ (location : String) (v : Value) {j : Json},
    ofValue location v = .ok j → v.HasNormalForm j
  | _, .null, _, h => by
    cases h
    exact .null
  | _, .bool b, _, h => by
    cases h
    exact .bool b
  | _, .int n, _, h => by
    cases h
    exact .int n
  | _, .float x, _, h => by
    cases h
    exact .float x
  | _, .text s, _, h => by
    cases h
    exact .text s
  | _, .date d, _, h => by
    cases h
    exact .date d
  | _, .datetime t, _, h => by
    cases h
    exact .datetime t
  | _, .bytes _, _, h => by cases h
  | _, .set _, _, h => by cases h
  | location, .list items, _, h => by
    obtain ⟨js, hjs, rfl⟩ := Except.map_eq_ok_iff.mp h
    obtain ⟨hlength, hall⟩ := List.forall₂_iff_zip.mp (forall₂_of_ofItems location 0 items hjs)
    exact .list hlength fun v j hmem => hall hmem
  | location, .tuple items, _, h => by
    obtain ⟨js, hjs, rfl⟩ := Except.map_eq_ok_iff.mp h
    obtain ⟨hlength, hall⟩ := List.forall₂_iff_zip.mp (forall₂_of_ofItems location 0 items hjs)
    exact .tuple hlength fun v j hmem => hall hmem
  | location, .map entries, _, h => by
    obtain ⟨members, hmembers, rfl⟩ := Except.map_eq_ok_iff.mp h
    exact hasNormalForm_ofList (forall₂_of_ofEntries location entries hmembers)

theorem forall₂_of_ofItems : ∀ (location : String) (position : Nat) (items : List Value)
    {js : List Json}, ofItems location position items = .ok js →
      List.Forall₂ Value.HasNormalForm items js
  | _, _, [], _, h => by
    cases h
    exact .nil
  | location, position, v :: items, _, h => by
    obtain ⟨first, hfirst, h⟩ := Except.bind_eq_ok_iff.mp h
    obtain ⟨rest, hrest, h⟩ := Except.bind_eq_ok_iff.mp h
    cases h
    exact .cons (hasNormalForm_of_ofValue _ v hfirst) (forall₂_of_ofItems _ _ items hrest)

theorem forall₂_of_ofEntries : ∀ (location : String) (entries : Entries)
    {members : List (String × Json)}, ofEntries location entries = .ok members →
      List.Forall₂ (fun m e => e.1.display = m.1 ∧ e.2.HasNormalForm m.2) members entries
  | _, [], _, h => by
    cases h
    exact .nil
  | location, (key, v) :: entries, _, h => by
    obtain ⟨first, hfirst, h⟩ := Except.bind_eq_ok_iff.mp h
    obtain ⟨rest, hrest, h⟩ := Except.bind_eq_ok_iff.mp h
    cases h
    exact .cons ⟨rfl, hasNormalForm_of_ofValue _ v hfirst⟩ (forall₂_of_ofEntries _ entries hrest)

end

/-! ## Normal forms are kept -/

theorem ofItems_toValues {items : List Json}
    (h : ∀ j ∈ items, ∀ location, ofValue location j.toValue = .ok j) (location : String)
    (position : Nat) : ofItems location position (toValues items) = .ok items := by
  induction items generalizing position with
  | nil => rfl
  | cons item items ih =>
    rw [List.forall_mem_cons] at h
    rw [toValues, ofItems, h.1, ih h.2]
    rfl

theorem ofEntries_toEntries {members : List (String × Json)}
    (h : ∀ m ∈ members, ∀ location, ofValue location m.2.toValue = .ok m.2) (location : String) :
    ofEntries location (toEntries members) = .ok members := by
  induction members with
  | nil => rfl
  | cons member members ih =>
    rw [List.forall_mem_cons] at h
    rw [toEntries, ofEntries, h.1, ih h.2]
    rfl

/-- A normal form is its own normal form. -/
theorem ofValue_toValue {j : Json} (h : j.WellKeyed) (location : String) :
    ofValue location j.toValue = .ok j := by
  induction h generalizing location with
  | null | bool _ | int _ | float _ | text _ => rfl
  | list _ ih =>
    rw [toValue, ofValue, ofItems_toValues ih]
    rfl
  | object hkeys _ ih =>
    rw [toValue, ofValue, ofEntries_toEntries ih]
    exact congrArg (Except.ok ∘ object) (Assoc.ofList_eq_self hkeys)

end Json

/-! ## Defaults -/

end DocSchema
