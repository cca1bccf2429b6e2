import DocSchema.Proofs.Except
import DocSchema.Schema.Load
import Mathlib.Logic.Relation

/-!
# Keys with two spellings

Some keys of a document may be spelled in two ways. Of the values under the two spellings the one
under the first spelling counts, unless it is null. A document may so be brought to the first
spellings: the value that counts goes under the first one, and the second one goes. This module
shows that nothing comes of it, neither for the schema nor for the fault of a document that is none,
whether it is done everywhere or here and there.

## Changes of a document

A change happens in one mapping: the document, an entity, or a relationship. Either a key gets its
first spelling, or a value that does not count is replaced by any other or dropped. The mapping may
be an item of a list that is a part of another mapping, and this one likewise. A document is
rewritten by any number of such changes, in any order.

Two mappings are compared by the values that are found under texts. So the order of the entries does
not matter, nor what stands under keys of other kinds.

## Main definitions

* `Entries.Respelled`, `Entries.Shadowed`: changes of one mapping
* `MappingChanged`: a change in a mapping or in one of its parts
* `Schema.DocumentChanged`: a change of a document

## Main results

* `Schema.ofValue_eq_of_changed`: a change makes no difference
* `ofValue_eq_of_rewritten`: any number of changes makes none
-/

namespace DocSchema

open Value (lookup)

/-! ## Changes -/

/-- A key gets its first spelling: the value that counts is under it, the second spelling is gone,
and all else is as it was. -/
structure Entries.Respelled (key other : String) (node node' : Entries) : Prop where
  kept : node.get key ≠ .null → node'.get key = node.get key
  moved : node.get key = .null → node'.get key = node.get other
  dropped : lookup other node' = none
  others : ∀ k, k ≠ key → k ≠ other → lookup k node' = lookup k node

/-- A value under the first spelling is given, and what the second one holds is changed in any
way. -/
structure Entries.Shadowed (key other : String) (node node' : Entries) : Prop where
  given : node.get key ≠ .null
  others : ∀ k, k ≠ other → lookup k node' = lookup k node

/-- The value under one key is changed. -/
structure Entries.PartChanged (change : Value → Value → Prop) (key : String)
    (node node' : Entries) : Prop where
  changed : change (node.get key) (node'.get key)
  others : ∀ k, k ≠ key → lookup k node' = lookup k node

/-- One item of a list is changed. -/
inductive ItemChanged (change : Value → Value → Prop) : Value → Value → Prop
  | list {before after : List Value} {v v' : Value} (h : change v v') :
      ItemChanged change (.list (before ++ v :: after)) (.list (before ++ v' :: after))
  | tuple {before after : List Value} {v v' : Value} (h : change v v') :
      ItemChanged change (.tuple (before ++ v :: after)) (.tuple (before ++ v' :: after))

/-- A mapping is changed in one of its keys with two spellings, or in one item of a part. -/
inductive MappingChanged (spellings : List (String × String)) (parts : List String)
    (change : Value → Value → Prop) : Value → Value → Prop
  | respelled {key other : String} {node node' : Entries} (hkeys : (key, other) ∈ spellings)
      (h : node.Respelled key other node') :
      MappingChanged spellings parts change (.map node) (.map node')
  | shadowed {key other : String} {node node' : Entries} (hkeys : (key, other) ∈ spellings)
      (h : node.Shadowed key other node') :
      MappingChanged spellings parts change (.map node) (.map node')
  | part {key : String} {node node' : Entries} (hkey : key ∈ parts)
      (h : node.PartChanged (ItemChanged change) key node') :
      MappingChanged spellings parts change (.map node) (.map node')

/-- The keys of a relationship with two spellings. -/
def Relationship.spellings : List (String × String) :=
  [("targetEntity", "model"), ("viaField", "field")]

/-- The keys of an entity with two spellings. -/
def Entity.spellings : List (String × String) :=
  [("collectionName", "collection"), ("indexSpecs", "indexes")]

/-- The keys of a document with two spellings. -/
def Schema.spellings : List (String × String) :=
  [("entities", "dataModels"), ("roles", "userRoles")]

/-- A change of a relationship. -/
def Relationship.Changed : Value → Value → Prop :=
  MappingChanged spellings [] fun _ _ => False

/-- A change of an entity, which may be one of a relationship. -/
def Entity.Changed : Value → Value → Prop :=
  MappingChanged spellings ["relationships"] Relationship.Changed

/-- A change of a document, which may be one of an entity. -/
def Schema.DocumentChanged : Value → Value → Prop :=
  MappingChanged spellings ["entities", "dataModels"] Entity.Changed

/-! ## What is read of a mapping -/

namespace Entries

variable {key other : String} {node node' : Entries}

theorem get_eq (h : lookup key node' = lookup key node) : node'.get key = node.get key := by
  rw [get, get, h]

theorem get_of_none (h : lookup key node = none) : node.get key = .null := by
  rw [get, h]
  rfl

theorem firstPresent_of_null (h : node.get key = .null) :
    node.firstPresent key other = node.get other := by
  rw [firstPresent, h]

theorem firstPresent_of_ne_null (h : node.get key ≠ .null) :
    node.firstPresent key other = node.get key := by
  unfold firstPresent
  split
  · contradiction
  · rfl

theorem firstPresent_eq (hkey : node'.get key = node.get key)
    (hother : node'.get other = node.get other) :
    node'.firstPresent key other = node.firstPresent key other := by
  rw [firstPresent, firstPresent, hkey, hother]

/-- Two mappings are read alike: of the keys with two spellings the same values count, and the
values under all other keys are the same. -/
structure Agree (spellings : List (String × String)) (node node' : Entries) : Prop where
  spelled : ∀ s ∈ spellings, node'.firstPresent s.1 s.2 = node.firstPresent s.1 s.2
  others : ∀ k, (∀ s ∈ spellings, k ≠ s.1 ∧ k ≠ s.2) → lookup k node' = lookup k node

/-- All spellings of all keys differ. -/
def Apart (spellings : List (String × String)) : Prop :=
  ∀ s ∈ spellings, s.1 ≠ s.2 ∧
    ∀ t ∈ spellings, t ≠ s → t.1 ≠ s.1 ∧ t.1 ≠ s.2 ∧ t.2 ≠ s.1 ∧ t.2 ≠ s.2

theorem Respelled.firstPresent_eq (h : node.Respelled key other node') :
    node'.firstPresent key other = node.firstPresent key other := by
  by_cases hkey : node.get key = .null
  · rw [firstPresent_of_null hkey]
    by_cases hother : node.get other = .null
    · rw [firstPresent_of_null ((h.moved hkey).trans hother), get_of_none h.dropped, hother]
    · have hgiven : node'.get key ≠ .null := by rwa [h.moved hkey]
      rw [firstPresent_of_ne_null hgiven, h.moved hkey]
  · have hgiven : node'.get key ≠ .null := by rwa [h.kept hkey]
    rw [firstPresent_of_ne_null hgiven, firstPresent_of_ne_null hkey, h.kept hkey]

theorem Shadowed.firstPresent_eq (h : node.Shadowed key other node') (hne : key ≠ other) :
    node'.firstPresent key other = node.firstPresent key other := by
  have hkey := get_eq (h.others key hne)
  have hgiven : node'.get key ≠ .null := by rw [hkey]; exact h.given
  rw [firstPresent_of_ne_null hgiven, firstPresent_of_ne_null h.given, hkey]

/-- What changes nothing but a pair of spellings, and not the value that counts, changes nothing
that is read. -/
theorem agree_of_pair {spellings : List (String × String)} (hapart : Apart spellings)
    (hkeys : (key, other) ∈ spellings)
    (hpair : node'.firstPresent key other = node.firstPresent key other)
    (hothers : ∀ k, k ≠ key → k ≠ other → lookup k node' = lookup k node) :
    node.Agree spellings node' where
  spelled s hs := by
    by_cases hsame : s = (key, other)
    · rw [hsame]
      exact hpair
    · obtain ⟨h₁, h₂, h₃, h₄⟩ := (hapart _ hkeys).2 s hs hsame
      exact Entries.firstPresent_eq (get_eq (hothers s.1 h₁ h₂)) (get_eq (hothers s.2 h₃ h₄))
  others k hk := hothers k (hk _ hkeys).1 (hk _ hkeys).2

theorem Respelled.agree {spellings : List (String × String)} (h : node.Respelled key other node')
    (hapart : Apart spellings) (hkeys : (key, other) ∈ spellings) : node.Agree spellings node' :=
  agree_of_pair hapart hkeys h.firstPresent_eq h.others

theorem Shadowed.agree {spellings : List (String × String)} (h : node.Shadowed key other node')
    (hapart : Apart spellings) (hkeys : (key, other) ∈ spellings) : node.Agree spellings node' :=
  agree_of_pair hapart hkeys (h.firstPresent_eq (hapart _ hkeys).1) fun k _ hk => h.others k hk

end Entries

/-! ## Lists with a changed item -/

section Items

variable {α : Type} {read : String → Value → Except SchemaFault α} {change : Value → Value → Prop}
  {v v' : Value}

theorem readEach_eq_of_item (h : ∀ location, read location v' = read location v)
    (before after : List Value) (location : String) (position : Nat) :
    readEach read location position (before ++ v' :: after) =
      readEach read location position (before ++ v :: after) := by
  induction before generalizing position with
  | nil => rw [List.nil_append, List.nil_append, readEach, readEach, h]
  | cons w before ih => rw [List.cons_append, List.cons_append, readEach, readEach, ih]

/-- A list with a changed item is still a list, and its items are read to the same results if the
change makes no difference for the item. -/
theorem ItemChanged.exists_items (h : ItemChanged change v v')
    (hchange : ∀ v v', change v v' → ∀ location, read location v' = read location v) :
    ∃ items items', (∀ location, readList location v = .ok items) ∧
      (∀ location, readList location v' = .ok items') ∧
      ∀ location, readEach read location 0 items' = readEach read location 0 items := by
  cases h with
  | list h =>
    exact ⟨_, _, fun _ => rfl, fun _ => rfl, fun _ => readEach_eq_of_item (hchange _ _ h) _ _ _ 0⟩
  | tuple h =>
    exact ⟨_, _, fun _ => rfl, fun _ => rfl, fun _ => readEach_eq_of_item (hchange _ _ h) _ _ _ 0⟩

theorem ItemChanged.readItems_eq (h : ItemChanged change v v')
    (hchange : ∀ v v', change v v' → ∀ location, read location v' = read location v)
    (location : String) :
    readItems read location v' = readItems read location v := by
  obtain ⟨items, items', hitems, hitems', heach⟩ := h.exists_items hchange
  rw [readItems, readItems, hitems, hitems']
  exact heach location

theorem ItemChanged.ne_null (h : ItemChanged change v v') : v ≠ .null ∧ v' ≠ .null := by
  cases h with
  | list => exact ⟨nofun, nofun⟩
  | tuple => exact ⟨nofun, nofun⟩

end Items

/-! ## Relationships -/

theorem Relationship.apart_spellings : Entries.Apart spellings := by
  unfold Entries.Apart
  decide

theorem Relationship.ofValue_eq_of_agree {node node' : Entries} (h : node.Agree spellings node')
    (location : String) : ofValue location (.map node') = ofValue location (.map node) := by
  have htype : lookup "type" node' = lookup "type" node := h.others "type" (by decide)
  have htarget : node'.firstPresent "targetEntity" "model" =
      node.firstPresent "targetEntity" "model" := h.spelled ("targetEntity", "model") (by decide)
  have hvia : node'.firstPresent "viaField" "field" = node.firstPresent "viaField" "field" :=
    h.spelled ("viaField", "field") (by decide)
  rw [ofValue, ofValue, readMapping, readMapping, Except.ok_bind, Except.ok_bind, htype, htarget,
    hvia]

/-- A change of a relationship makes no difference. -/
theorem Relationship.ofValue_eq_of_changed {v v' : Value} (h : Changed v v') (location : String) :
    ofValue location v' = ofValue location v := by
  cases h with
  | respelled hkeys h => exact ofValue_eq_of_agree (h.agree apart_spellings hkeys) location
  | shadowed hkeys h => exact ofValue_eq_of_agree (h.agree apart_spellings hkeys) location
  | part hkey => cases hkey

/-! ## Entities -/

theorem Entity.apart_spellings : Entries.Apart spellings := by
  unfold Entries.Apart
  decide

/-- An entity is read alike if its relationships are. -/
theorem Entity.ofValue_eq {node node' : Entries}
    (hspelled : ∀ s ∈ spellings, node'.firstPresent s.1 s.2 = node.firstPresent s.1 s.2)
    (hname : lookup "name" node' = lookup "name" node)
    (hfields : node'.get "fields" = node.get "fields")
    (hrelationships : ∀ location, readItems Relationship.ofValue location (node'.get "relationships") =
      readItems Relationship.ofValue location (node.get "relationships"))
    (location : String) : ofValue location (.map node') = ofValue location (.map node) := by
  have hcollection : node'.firstPresent "collectionName" "collection" =
      node.firstPresent "collectionName" "collection" :=
    hspelled ("collectionName", "collection") (by decide)
  have hspecs : node'.firstPresent "indexSpecs" "indexes" = node.firstPresent "indexSpecs" "indexes" :=
    hspelled ("indexSpecs", "indexes") (by decide)
  rw [ofValue, ofValue, readMapping, readMapping, Except.ok_bind, Except.ok_bind, readName, readName,
    hname, hcollection, hfields, hrelationships, hspecs]

theorem Entity.ofValue_eq_of_agree {node node' : Entries} (h : node.Agree spellings node')
    (location : String) : ofValue location (.map node') = ofValue location (.map node) := by
  refine ofValue_eq h.spelled (h.others "name" (by decide)) ?_ ?_ location
  · exact Entries.get_eq (h.others "fields" (by decide))
  · intro location
    rw [Entries.get_eq (h.others "relationships" (by decide))]

/-- A change of an entity makes no difference. -/
theorem Entity.ofValue_eq_of_changed {v v' : Value} (h : Changed v v') (location : String) :
    ofValue location v' = ofValue location v := by
  cases h with
  | respelled hkeys h => exact ofValue_eq_of_agree (h.agree apart_spellings hkeys) location
  | shadowed hkeys h => exact ofValue_eq_of_agree (h.agree apart_spellings hkeys) location
  | @part key node node' hkey h =>
    obtain rfl := List.mem_singleton.mp hkey
    have hget : ∀ k, k ≠ "relationships" → node'.get k = node.get k := fun k hk =>
      Entries.get_eq (h.others k hk)
    refine ofValue_eq ?_ (h.others "name" (by decide)) (hget "fields" (by decide)) ?_ location
    · intro s hs
      have hne : s.1 ≠ "relationships" ∧ s.2 ≠ "relationships" := by
        revert s
        decide
      exact Entries.firstPresent_eq (hget s.1 hne.1) (hget s.2 hne.2)
    · exact h.changed.readItems_eq fun _ _ => Relationship.ofValue_eq_of_changed

/-! ## Documents -/

theorem Schema.apart_spellings : Entries.Apart spellings := by
  unfold Entries.Apart
  decide

theorem Schema.ofValue_eq_of_agree {node node' : Entries} (h : node.Agree spellings node') :
    ofValue (.map node') = ofValue (.map node) := by
  have hentities : node'.firstPresent "entities" "dataModels" =
      node.firstPresent "entities" "dataModels" := h.spelled ("entities", "dataModels") (by decide)
  have hroles : node'.firstPresent "roles" "userRoles" = node.firstPresent "roles" "userRoles" :=
    h.spelled ("roles", "userRoles") (by decide)
  rw [ofValue, ofValue, readRoot, readRoot, Except.ok_bind, Except.ok_bind, hentities, hroles]

/-- Where the lists of entities are read alike, so are the documents. -/
theorem Schema.ofValue_eq_of_items {node node' : Entries} {items items' : List Value}
    (hitems : readList "entities" (node.firstPresent "entities" "dataModels") = .ok items)
    (hitems' : readList "entities" (node'.firstPresent "entities" "dataModels") = .ok items')
    (heach : readEach Entity.ofValue "entities" 0 items' = readEach Entity.ofValue "entities" 0 items)
    (hroles : node'.firstPresent "roles" "userRoles" = node.firstPresent "roles" "userRoles") :
    ofValue (.map node') = ofValue (.map node) := by
  rw [ofValue, ofValue, readRoot, readRoot, Except.ok_bind, Except.ok_bind, hitems, hitems', hroles,
    Except.ok_bind, Except.ok_bind, heach]

/-- A change of the list under either spelling is one of the list that counts, or of no effect. -/
theorem Schema.ofValue_eq_of_part {key : String} {node node' : Entries}
    (hkey : key ∈ ["entities", "dataModels"])
    (h : node.PartChanged (ItemChanged Entity.Changed) key node') :
    ofValue (.map node') = ofValue (.map node) := by
  have hroles : node'.firstPresent "roles" "userRoles" = node.firstPresent "roles" "userRoles" := by
    have hne : "roles" ≠ key ∧ "userRoles" ≠ key := by
      clear h
      revert key
      decide
    exact Entries.firstPresent_eq (Entries.get_eq (h.others _ hne.1))
      (Entries.get_eq (h.others _ hne.2))
  obtain ⟨hgiven, hgiven'⟩ := h.changed.ne_null
  obtain ⟨items, items', hitems, hitems', heach⟩ :=
    h.changed.exists_items fun _ _ => Entity.ofValue_eq_of_changed
  simp only [List.mem_cons, List.not_mem_nil, or_false] at hkey
  obtain rfl | rfl := hkey
  · refine ofValue_eq_of_items ?_ ?_ (heach "entities") hroles
    · rw [Entries.firstPresent_of_ne_null hgiven, hitems]
    · rw [Entries.firstPresent_of_ne_null hgiven', hitems']
  · have hfirst : node'.get "entities" = node.get "entities" :=
      Entries.get_eq (h.others "entities" (by decide))
    by_cases hnull : node.get "entities" = .null
    · refine ofValue_eq_of_items ?_ ?_ (heach "entities") hroles
      · rw [Entries.firstPresent_of_null hnull, hitems]
      · rw [Entries.firstPresent_of_null (hfirst.trans hnull), hitems']
    · have hshadowed : node.Shadowed "entities" "dataModels" node' := ⟨hnull, h.others⟩
      exact ofValue_eq_of_agree (hshadowed.agree apart_spellings (by decide))

/-- A change of a document makes no difference. -/
theorem Schema.ofValue_eq_of_changed {d d' : Value} (h : DocumentChanged d d') :
    ofValue d' = ofValue d := by
  cases h with
  | respelled hkeys h => exact ofValue_eq_of_agree (h.agree apart_spellings hkeys)
  | shadowed hkeys h => exact ofValue_eq_of_agree (h.agree apart_spellings hkeys)
  | part hkey h => exact ofValue_eq_of_part hkey h

/-- **Both spellings of a key mean the same.** A document that is rewritten at any number of places,
each time by giving a key its first spelling or by changing a value that does not count, has the
same schema as before, or the same fault. -/
theorem ofValue_eq_of_rewritten {d d' : Value} (h : Relation.ReflTransGen Schema.DocumentChanged d d') :
    Schema.ofValue d' = Schema.ofValue d := by
  induction h with
  | refl => rfl
  | tail _ hchange ih => rw [Schema.ofValue_eq_of_changed hchange, ih]

/-! ## An example -/

/-- A relationship with a user under a key. -/
def userLink (key : String) : Value :=
  .map [(.text "type", .text "manyToOne"), (.text key, .text "User")]

/-- An entity with a relationship and more entries. -/
def linkedNote (link : Value) (more : Entries) : Value :=
  .map ([(.text "name", .text "Note"), (.text "relationships", .list [link]),
    (.text "indexSpecs", .list [])] ++ more)

/-- A document with one entity under a key. -/
def noteDocument (key : String) (note : Value) : Value := .map [(.text key, .list [note])]

theorem changed_userLink : Relationship.Changed (userLink "model") (userLink "targetEntity") := by
  refine @MappingChanged.respelled _ _ _ "targetEntity" "model" _ _ (by decide) ?_
  refine ⟨fun hgiven => absurd rfl hgiven, fun _ => rfl, rfl, fun k hk hother => ?_⟩
  simp [lookup, Ne.symm hk, Ne.symm hother]

/-- A change of the relationship is one of the entity. -/
theorem changed_linkedNote {link link' : Value} (h : Relationship.Changed link link')
    (more : Entries) : Entity.Changed (linkedNote link more) (linkedNote link' more) := by
  refine @MappingChanged.part _ _ _ "relationships" _ _ (by decide) ⟨?_, fun k hk => ?_⟩
  · exact @ItemChanged.list _ [] [] _ _ h
  · simp [lookup, Ne.symm hk]

/-- Index specifications that are none are dropped where others are given. -/
theorem changed_indexes (link : Value) :
    Entity.Changed (linkedNote link [(.text "indexes", .int 5)]) (linkedNote link []) := by
  refine @MappingChanged.respelled _ _ _ "indexSpecs" "indexes" _ _ (by decide) ?_
  refine ⟨fun _ => rfl, nofun, rfl, fun k hk hother => ?_⟩
  simp [lookup, Ne.symm hother]

/-- A change of the entity is one of the document. -/
theorem changed_noteDocument {note note' : Value} (h : Entity.Changed note note') :
    Schema.DocumentChanged (noteDocument "dataModels" note) (noteDocument "dataModels" note') := by
  refine @MappingChanged.part _ _ _ "dataModels" _ _ (by decide) ⟨?_, fun k hk => ?_⟩
  · exact @ItemChanged.list _ [] [] _ _ h
  · simp [lookup, Ne.symm hk]

theorem changed_dataModels (note : Value) :
    Schema.DocumentChanged (noteDocument "dataModels" note) (noteDocument "entities" note) := by
  refine @MappingChanged.respelled _ _ _ "entities" "dataModels" _ _ (by decide) ?_
  refine ⟨fun hgiven => absurd rfl hgiven, fun _ => rfl, rfl, fun k hk hother => ?_⟩
  simp [lookup, Ne.symm hk, Ne.symm hother]

/-- A document is rewritten at three levels and keeps its schema. -/
theorem noteDocument_rewritten :
    Relation.ReflTransGen Schema.DocumentChanged
        (noteDocument "dataModels" (linkedNote (userLink "model") [(.text "indexes", .int 5)]))
        (noteDocument "entities" (linkedNote (userLink "targetEntity") [])) ∧
      Schema.ofValue (noteDocument "entities" (linkedNote (userLink "targetEntity") [])) =
        Schema.ofValue
          (noteDocument "dataModels" (linkedNote (userLink "model") [(.text "indexes", .int 5)])) := by
  have hrewritten : Relation.ReflTransGen Schema.DocumentChanged
      (noteDocument "dataModels" (linkedNote (userLink "model") [(.text "indexes", .int 5)]))
      (noteDocument "entities" (linkedNote (userLink "targetEntity") [])) :=
    ((Relation.ReflTransGen.single
      (changed_noteDocument (changed_linkedNote changed_userLink _))).tail
        (changed_noteDocument (changed_indexes _))).tail (changed_dataModels _)
  exact ⟨hrewritten, ofValue_eq_of_rewritten hrewritten⟩

end DocSchema
