import DocSchema.Proofs.Report.Alignment

/-!
# What the parts of a schema have influence on

Much of a schema is there to be read: roles, relationships, types, defaults. None of it may open or
close a door. This module says what the access rules and the indexes depend on, by comparing two
schemas that agree on that much and differ in anything else.

It also says how far the influence of one entity reaches. When an entity is replaced by another
one, all outputs stay as they are but for the totals and the parts of that entity. `Surroundings`
is what stays: the outputs with a hole for one entity. The hole is a place of its own in each
output, and what fills it may be of any length.

## Main definitions

* `Entity.SameAccess`, `Entity.SameIndexing`: two entities agree on what matters
* `Outputs`, `Schema.outputs`: all that is derived from a schema
* `Surroundings`, `Surroundings.fill`

## Main results

* `map_filter_eq_of_forall₂`: selecting from two lists that agree item by item
* `Entity.policy_eq_of_sameAccess`, `Entity.indexes_eq_of_sameIndexing`
* `Schema.outputs_eq_fill`
* `influence_confined`
-/

namespace DocSchema

/-! ## Agreement -/

/-- Two fields have the same name and the same tag. -/
structure Field.SameAccess (f g : Field) : Prop where
  name : f.name = g.name
  ownership : f.ownership = g.ownership

/-- Two entities have the same name, the same collection and, field by field, the same names and
tags. -/
structure Entity.SameAccess (d e : Entity) : Prop where
  name : d.name = e.name
  collection : d.collection = e.collection
  fields : List.Forall₂ Field.SameAccess d.fields e.fields

/-- Two fields have the same name and the same tag, and are both times or both not. -/
structure Field.SameIndexing (f g : Field) : Prop extends SameAccess f g where
  time : f.type = "timestamp" ↔ g.type = "timestamp"

/-- Two entities have the same collection, the same index specifications and, field by field, the
same names and tags and times. -/
structure Entity.SameIndexing (d e : Entity) : Prop where
  collection : d.collection = e.collection
  indexSpecs : d.indexSpecs = e.indexSpecs
  fields : List.Forall₂ Field.SameIndexing d.fields e.fields

theorem Field.SameAccess.resolvedOwnership_eq {f g : Field} (h : f.SameAccess g) :
    f.resolvedOwnership = g.resolvedOwnership := by
  rw [resolvedOwnership, resolvedOwnership, h.name, h.ownership]

theorem Field.SameIndexing.isTimestamp_eq {f g : Field} (h : f.SameIndexing g) :
    f.isTimestamp = g.isTimestamp := by
  rw [Bool.eq_iff_iff, isTimestamp, isTimestamp, beq_iff_eq, beq_iff_eq]
  exact h.time

/-- What is selected from two lists agrees where the lists agree on the selection and on what is
taken of an item. -/
theorem map_filter_eq_of_forall₂ {α β γ : Type} {p : α → Bool} {q : β → Bool} {f : α → γ}
    {g : β → γ} {as : List α} {bs : List β}
    (h : List.Forall₂ (fun a b => p a = q b ∧ f a = g b) as bs) :
    (as.filter p).map f = (bs.filter q).map g := by
  induction h with
  | nil => rfl
  | cons hab _ ih =>
    obtain ⟨hselect, htake⟩ := hab
    simp only [List.filter_cons, hselect]
    split_ifs
    · rw [List.map_cons, List.map_cons, htake, ih]
    · exact ih

/-! ## Access rules -/

/-- A policy takes nothing of the fields but the name of the first owner. -/
theorem Entity.policy_eq (e : Entity) :
    e.policy =
      match ((e.fields.filter Field.grantsAccess).map Field.name).head? with
      | some name => .ownership name
      | none => if e.isUserProfile then .userProfile else .standard := by
  rw [List.head?_map, List.head?_filter, policy]
  cases e.fields.find? Field.grantsAccess with
  | none => rfl
  | some f => rfl

theorem Entity.policy_eq_of_sameAccess {d e : Entity} (h : d.SameAccess e) :
    d.policy = e.policy := by
  have howners : (d.fields.filter Field.grantsAccess).map Field.name =
      (e.fields.filter Field.grantsAccess).map Field.name := by
    refine map_filter_eq_of_forall₂ (h.fields.imp fun f g hfield => ⟨?_, hfield.name⟩)
    rw [Field.grantsAccess, Field.grantsAccess, hfield.resolvedOwnership_eq]
  rw [policy_eq, policy_eq, howners, isUserProfile, isUserProfile, h.name]

theorem Entity.block_eq_of_sameAccess {d e : Entity} (h : d.SameAccess e) : d.block = e.block := by
  rw [block, block, h.name, h.collection, policy_eq_of_sameAccess h]

theorem rulesText_eq_of_sameAccess {s t : Schema}
    (h : List.Forall₂ Entity.SameAccess s.entities t.entities) : rulesText s = rulesText t := by
  have hblocks : s.entities.map Entity.block = t.entities.map Entity.block := by
    rw [← List.forall₂_eq_eq_eq, List.forall₂_map_left_iff, List.forall₂_map_right_iff]
    exact h.imp fun _ _ => Entity.block_eq_of_sameAccess
  rw [rulesText, rulesText, rulesLines, rulesLines, List.flatMap_def, List.flatMap_def, hblocks]

/-! ## Indexes -/

/-- The derived indexes take nothing of the fields but names. -/
theorem Entity.ownerTimeIndexes_eq (e : Entity) :
    e.ownerTimeIndexes = (e.indexOwners.map Field.name).flatMap fun owner =>
      (e.timestamps.map Field.name).map fun time =>
        ⟨e.collection, [{ path := owner }, { path := time, order := .descending }]⟩ := by
  simp only [ownerTimeIndexes, List.flatMap_map, List.map_map, Function.comp_def]

theorem Entity.indexes_eq_of_sameIndexing {d e : Entity} (h : d.SameIndexing e) :
    d.indexes = e.indexes := by
  have howners : d.indexOwners.map Field.name = e.indexOwners.map Field.name := by
    refine map_filter_eq_of_forall₂ (h.fields.imp fun f g hfield => ⟨?_, hfield.name⟩)
    rw [Field.grantsIndex, Field.grantsIndex, hfield.resolvedOwnership_eq]
  have htimes : d.timestamps.map Field.name = e.timestamps.map Field.name :=
    map_filter_eq_of_forall₂ (h.fields.imp fun f g hfield => ⟨hfield.isTimestamp_eq, hfield.name⟩)
  rw [indexes, indexes, ownerTimeIndexes_eq, ownerTimeIndexes_eq, howners, htimes, listedIndexes,
    listedIndexes, h.collection, h.indexSpecs]

theorem indexes_eq_of_sameIndexing {s t : Schema}
    (h : List.Forall₂ Entity.SameIndexing s.entities t.entities) : s.indexes = t.indexes := by
  have hindexes : s.entities.map Entity.indexes = t.entities.map Entity.indexes := by
    rw [← List.forall₂_eq_eq_eq, List.forall₂_map_left_iff, List.forall₂_map_right_iff]
    exact h.imp fun _ _ => Entity.indexes_eq_of_sameIndexing
  rw [Schema.indexes, Schema.indexes, List.flatMap_def, List.flatMap_def, hindexes]

/-! ## Surroundings of an entity -/

/-- All that is derived from a schema. -/
structure Outputs where
  rules : String
  storage : String
  manifest : Json
  record : Json

/-- All that is derived from a schema. -/
def Schema.outputs (s : Schema) : Outputs where
  rules := rulesText s
  storage := storageRules
  manifest := manifestJson s.indexes
  record := s.report.record

@[simp] theorem Schema.rules_outputs (s : Schema) : s.outputs.rules = rulesText s := by
  rw [outputs]

@[simp] theorem Schema.storage_outputs (s : Schema) : s.outputs.storage = storageRules := by
  rw [outputs]

@[simp] theorem Schema.manifest_outputs (s : Schema) :
    s.outputs.manifest = manifestJson s.indexes := by
  rw [outputs]

/-- What stands on one side of the parts of an entity. -/
structure Side where
  rules : String
  indexes : List Json
  collections : List Json
  rights : List Json
  capacity : List Json

/-- The outputs of a schema but for the totals and the parts of one entity. -/
structure Surroundings where
  before : Side
  after : Side
  roles : Json

/-- The outputs with the given totals and the parts of an entity in their places: its block
between two parts of the rules file, its run between two parts of the manifest, and its entries in
three lists of the record. -/
def Surroundings.fill (c : Surroundings) (totals : Json) (own : EntityOutputs) : Outputs where
  rules := c.before.rules ++ Text.unlines own.block ++ c.after.rules
  storage := storageRules
  manifest := .object
    [("indexes", .list (c.before.indexes ++ own.indexes ++ c.after.indexes)),
      ("fieldOverrides", .list [])]
  record := .object
    [("overview", totals),
      ("collections", .list (c.before.collections ++ own.collection :: c.after.collections)),
      ("security", .object
        [("roles", c.roles), ("rules", .list (c.before.rights ++ own.rights :: c.after.rights))]),
      ("capacity", .list (c.before.capacity ++ own.capacity :: c.after.capacity))]

/-- What the entities on one side of an entity contribute, between two texts that surround all
blocks. -/
def Side.ofEntities (front : String) (entities : List Entity) (back : String) : Side where
  rules := front ++ Text.unlines (entities.flatMap Entity.block) ++ back
  indexes := entities.flatMap fun e => e.outputs.indexes
  collections := entities.map fun e => e.outputs.collection
  rights := entities.map fun e => e.outputs.rights
  capacity := entities.map fun e => e.outputs.capacity

/-- What surrounds the parts of an entity depends on the other entities and the roles only. -/
def Surroundings.ofEntities (before after : List Entity) (roles : List Role) : Surroundings where
  before := .ofEntities (Text.unlines headerLines) before ""
  after := .ofEntities "" after (Text.unlines footerLines)
  roles := .list (roles.map Role.record)

theorem Schema.outputs_eq_fill {s : Schema} {before after : List Entity} {e : Entity}
    (h : s.entities = before ++ e :: after) :
    s.outputs = (Surroundings.ofEntities before after s.roles).fill s.overview.record e.outputs := by
  have hrules : rulesText s =
      ((Surroundings.ofEntities before after s.roles).fill s.overview.record e.outputs).rules := by
    simp [rulesText, rulesLines, h, Surroundings.fill, Surroundings.ofEntities, Side.ofEntities,
      Text.unlines_append, Entity.outputs, String.append_assoc]
  have hmanifest : manifestJson s.indexes =
      ((Surroundings.ofEntities before after s.roles).fill s.overview.record e.outputs).manifest := by
    simp [manifestJson, Schema.indexes, h, Surroundings.fill, Surroundings.ofEntities,
      Side.ofEntities, Entity.outputs, List.map_flatMap]
  have hrecord : s.report.record =
      ((Surroundings.ofEntities before after s.roles).fill s.overview.record e.outputs).record := by
    simp [Report.record, Schema.report, h, Surroundings.fill, Surroundings.ofEntities,
      Side.ofEntities, Entity.outputs, Function.comp_def]
  rw [outputs, hrules, hmanifest, hrecord]
  rfl

/-- **What the parts of a schema have influence on.** Two schemas with the same names, collections,
field names and tags have the same rules, whatever else they hold. Two schemas with the same
collections, index specifications, field names, tags and times have the same indexes. And where two
schemas differ in one entity only, their outputs have the same surroundings of this entity: besides
the totals, they differ in the parts of the entity alone. -/
theorem influence_confined (s t : Schema) :
    (List.Forall₂ Entity.SameAccess s.entities t.entities →
      s.outputs.rules = t.outputs.rules ∧ s.outputs.storage = t.outputs.storage) ∧
    (List.Forall₂ Entity.SameIndexing s.entities t.entities →
      s.indexes = t.indexes ∧ s.outputs.manifest = t.outputs.manifest) ∧
    ∀ before old new after, s.entities = before ++ old :: after →
      t.entities = before ++ new :: after → s.roles = t.roles →
        ∃ c : Surroundings, s.outputs = c.fill s.overview.record old.outputs ∧
          t.outputs = c.fill t.overview.record new.outputs := by
  refine ⟨fun haccess => ?_, fun hindexing => ?_, ?_⟩
  · simp [rulesText_eq_of_sameAccess haccess]
  · simp [indexes_eq_of_sameIndexing hindexing]
  · intro before old new after hs ht hroles
    refine ⟨.ofEntities before after s.roles, Schema.outputs_eq_fill hs, ?_⟩
    rw [hroles]
    exact Schema.outputs_eq_fill ht

/-- Notes of users, and tags. -/
def notesSchema : Schema where
  entities :=
    [{ name := "Note", fields := [{ name := "userId" }, { name := "at", type := "timestamp" }] },
      { name := "Tag" }]

/-- The same notes with types, flags, defaults and relationships. -/
def annotatedNotesSchema : Schema where
  entities :=
    [{ name := "Note"
       fields :=
        [{ name := "userId", type := "reference", required := true },
          { name := "at", type := "timestamp", default := .text "now" }]
       relationships := [{ type := "manyToOne", targetEntity := "User", viaField := "userId" }] },
      { name := "Tag" }]

/-- The notes have the same rules and indexes, and their records differ in one place. -/
theorem annotatedNotes_confined :
    List.Forall₂ Entity.SameAccess notesSchema.entities annotatedNotesSchema.entities ∧
      List.Forall₂ Entity.SameIndexing notesSchema.entities annotatedNotesSchema.entities ∧
      notesSchema.outputs.rules = annotatedNotesSchema.outputs.rules ∧
      notesSchema.indexes = annotatedNotesSchema.indexes ∧
      ∃ (c : Surroundings) (old new : Entity),
        old ∈ notesSchema.entities ∧ new ∈ annotatedNotesSchema.entities ∧
          notesSchema.outputs = c.fill notesSchema.overview.record old.outputs ∧
          annotatedNotesSchema.outputs = c.fill annotatedNotesSchema.overview.record new.outputs := by
  obtain ⟨hrules, hindexes, hplaces⟩ := influence_confined notesSchema annotatedNotesSchema
  have haccess : List.Forall₂ Entity.SameAccess notesSchema.entities annotatedNotesSchema.entities :=
    .cons ⟨rfl, rfl, .cons ⟨rfl, rfl⟩ (.cons ⟨rfl, rfl⟩ .nil)⟩ (.cons ⟨rfl, rfl, .nil⟩ .nil)
  have hindexing :
      List.Forall₂ Entity.SameIndexing notesSchema.entities annotatedNotesSchema.entities :=
    .cons ⟨rfl, rfl, .cons ⟨⟨rfl, rfl⟩, by decide⟩ (.cons ⟨⟨rfl, rfl⟩, by decide⟩ .nil)⟩
      (.cons ⟨rfl, rfl, .nil⟩ .nil)
  obtain ⟨c, hs, ht⟩ := hplaces [] _ _ _ rfl rfl rfl
  exact ⟨haccess, hindexing, (hrules haccess).1, (hindexes hindexing).1, c, _, _,
    List.mem_cons_self, List.mem_cons_self, hs, ht⟩

end DocSchema
