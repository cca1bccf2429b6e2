import DocSchema.Proofs.Schema.Defaults
import DocSchema.Proofs.Schema.Load

/-!
# Canonical documents

A schema can be spelled out as a document: every part under its first spelling, null for what the
schema does not give, and lists in their order. Reading that document gives the schema back, so a
document can say everything that a schema can hold.

There is one exception, and no document can say it. A default in a schema is any JSON value, but no
default that was read has an object with two members of one key. The schemas that come back are
those whose defaults are well keyed.

## Main definitions

* `Schema.document`: the canonical document of a schema

## Main results

* `Schema.ofValue_document`: the schema comes back
* `ofValue_document_iff`: the schemas that come back
-/

namespace DocSchema

/-! ## Documents -/

/-- A text, or null if there is none. -/
def Value.ofText? (text : Option String) : Value := text.elim .null .text

/-- The list of the documents of some parts. -/
def Value.listOf {α : Type} (document : α → Value) (parts : List α) : Value :=
  .list (parts.map document)

/-- The canonical document of a field. -/
def Field.document (f : Field) : Value := .map [
  (.text "name", .text f.name),
  (.text "type", .text f.type),
  (.text "required", .bool f.required),
  (.text "default", f.default.toValue),
  (.text "ownership", .ofText? (f.ownership.map Ownership.tag))]

/-- The canonical document of a relationship. -/
def Relationship.document (r : Relationship) : Value := .map [
  (.text "type", .text r.type),
  (.text "targetEntity", .text r.targetEntity),
  (.text "viaField", .text r.viaField)]

/-- The canonical document of an entity. -/
def Entity.document (e : Entity) : Value := .map [
  (.text "name", .text e.name),
  (.text "collectionName", .ofText? e.collectionName),
  (.text "fields", .listOf Field.document e.fields),
  (.text "relationships", .listOf Relationship.document e.relationships),
  (.text "indexSpecs", .listOf (.listOf .text) e.indexSpecs)]

/-- The canonical document of a role. -/
def Role.document (r : Role) : Value := .map [
  (.text "role", .text r.role),
  (.text "permissions", .listOf .text r.permissions),
  (.text "description", .ofText? r.description)]

/-- The canonical document of a schema. -/
def Schema.document (s : Schema) : Value := .map [
  (.text "entities", .listOf Entity.document s.entities),
  (.text "roles", .listOf Role.document s.roles)]

/-! ## Lists and texts -/

section Items

variable {α : Type} {read : String → Value → Except SchemaFault α} {document : α → Value}
  {parts : List α}

/-- Parts that come back one by one come back in their order. -/
theorem readEach_map (h : ∀ part ∈ parts, ∀ location, read location (document part) = .ok part)
    (location : String) (position : Nat) :
    readEach read location position (parts.map document) = .ok parts := by
  induction parts generalizing position with
  | nil => rfl
  | cons part parts ih =>
    rw [List.forall_mem_cons] at h
    rw [List.map_cons, readEach, h.1, ih h.2]
    rfl

theorem readItems_listOf (h : ∀ part ∈ parts, ∀ location, read location (document part) = .ok part)
    (location : String) : readItems read location (.listOf document parts) = .ok parts :=
  readEach_map h location 0

end Items

theorem readOptionalText_ofText? (location : String) (text : Option String) :
    readOptionalText location (.ofText? text) = .ok text := by
  cases text <;> rfl

theorem Ownership.ofTag?_tag (ownership : Ownership) : ofTag? ownership.tag = some ownership := by
  cases ownership <;> rfl

theorem readOwnership_tag (location : String) (ownership : Option Ownership) :
    readOwnership location (.ofText? (ownership.map Ownership.tag)) = .ok ownership := by
  cases ownership with
  | none => rfl
  | some ownership =>
    rw [Option.map_some, Value.ofText?, Option.elim_some, readOwnership, Ownership.ofTag?_tag]

theorem readText_text (text location : String) : readText location (.text text) = .ok text := rfl

/-- An empty text counts as nothing, and nothing is the empty text. -/
theorem readLink_text (location text : String) : readLink location (.text text) = .ok text := by
  rw [readLink]
  split_ifs with h
  · rfl
  · rw [Value.isTruthy, bne_iff_ne, not_not] at h
    rw [h]
    rfl

/-! ## Parts of a schema -/

theorem Field.ofValue_document {f : Field} (h : f.default.WellKeyed) (location : String) :
    ofValue location f.document = .ok f := by
  refine Except.bind_eq_ok_iff.mpr ⟨_, rfl, ?_⟩
  refine Except.bind_eq_ok_iff.mpr ⟨f.name, rfl, ?_⟩
  refine Except.bind_eq_ok_iff.mpr ⟨f.type, rfl, ?_⟩
  refine Except.bind_eq_ok_iff.mpr ⟨f.required, rfl, ?_⟩
  refine Except.bind_eq_ok_iff.mpr ⟨f.default, Json.ofValue_toValue h _, ?_⟩
  exact Except.bind_eq_ok_iff.mpr ⟨f.ownership, readOwnership_tag _ f.ownership, rfl⟩

theorem Relationship.ofValue_document (r : Relationship) (location : String) :
    ofValue location r.document = .ok r := by
  refine Except.bind_eq_ok_iff.mpr ⟨_, rfl, ?_⟩
  refine Except.bind_eq_ok_iff.mpr ⟨r.type, rfl, ?_⟩
  refine Except.bind_eq_ok_iff.mpr ⟨r.targetEntity, readLink_text _ r.targetEntity, ?_⟩
  exact Except.bind_eq_ok_iff.mpr ⟨r.viaField, readLink_text _ r.viaField, rfl⟩

theorem Entity.ofValue_document {e : Entity} (h : ∀ f ∈ e.fields, f.default.WellKeyed)
    (location : String) : ofValue location e.document = .ok e := by
  refine Except.bind_eq_ok_iff.mpr ⟨_, rfl, ?_⟩
  refine Except.bind_eq_ok_iff.mpr ⟨e.name, rfl, ?_⟩
  refine Except.bind_eq_ok_iff.mpr ⟨e.collectionName, ?_, ?_⟩
  · -- the other spelling is not there, so it makes no difference that null gives way to it
    obtain ⟨name, collectionName, fields, relationships, indexSpecs⟩ := e
    cases collectionName <;> rfl
  refine Except.bind_eq_ok_iff.mpr ⟨e.fields, ?_, ?_⟩
  · exact readItems_listOf (fun f hf => Field.ofValue_document (h f hf)) _
  refine Except.bind_eq_ok_iff.mpr ⟨e.relationships, ?_, ?_⟩
  · exact readItems_listOf (fun r _ => Relationship.ofValue_document r) _
  refine Except.bind_eq_ok_iff.mpr ⟨e.indexSpecs, ?_, rfl⟩
  exact readItems_listOf (fun spec _ => readItems_listOf fun text _ => readText_text text) _

theorem Role.ofValue_document (r : Role) (location : String) :
    ofValue location r.document = .ok r := by
  refine Except.bind_eq_ok_iff.mpr ⟨_, rfl, ?_⟩
  refine Except.bind_eq_ok_iff.mpr ⟨_, rfl, ?_⟩
  refine Except.bind_eq_ok_iff.mpr ⟨r.role, rfl, ?_⟩
  refine Except.bind_eq_ok_iff.mpr ⟨r.permissions, ?_, ?_⟩
  · exact readEach_map (fun text _ => readText_text text) _ 0
  exact Except.bind_eq_ok_iff.mpr ⟨r.description, readOptionalText_ofText? _ r.description, rfl⟩

/-! ## Schemas -/

/-- **A schema comes back from its canonical document**, every part of it in its place. -/
theorem Schema.ofValue_document {s : Schema}
    (h : ∀ e ∈ s.entities, ∀ f ∈ e.fields, f.default.WellKeyed) :
    ofValue s.document = .ok s := by
  refine Except.bind_eq_ok_iff.mpr ⟨_, rfl, ?_⟩
  refine Except.bind_eq_ok_iff.mpr ⟨_, rfl, ?_⟩
  refine Except.bind_eq_ok_iff.mpr ⟨_, rfl, ?_⟩
  refine Except.bind_eq_ok_iff.mpr ⟨s.entities, ?_, ?_⟩
  · exact readEach_map (fun e he => Entity.ofValue_document (h e he)) _ 0
  refine Except.bind_eq_ok_iff.mpr ⟨s.roles, ?_, rfl⟩
  exact readEach_map (fun r _ => Role.ofValue_document r) _ 0

/-- No default that was read has an object with two members of one key. -/
theorem Schema.wellKeyed_of_ofValue {value : Value} {s : Schema} (h : ofValue value = .ok s) :
    ∀ e ∈ s.entities, ∀ f ∈ e.fields, f.default.WellKeyed := by
  intro e he f hf
  obtain ⟨place, default, hdefault⟩ := exists_default_of_ofValue h he hf
  exact (Json.hasNormalForm_of_ofValue place default hdefault).wellKeyed

/-- **The schemas that a document can say.** A schema comes back from its canonical document, and
from some document at all, exactly if no object in its defaults has two members of one key. -/
theorem ofValue_document_iff (s : Schema) :
    (Schema.ofValue s.document = .ok s ↔
      ∀ e ∈ s.entities, ∀ f ∈ e.fields, f.default.WellKeyed) ∧
    ((∃ value, Schema.ofValue value = .ok s) ↔ Schema.ofValue s.document = .ok s) := by
  refine ⟨⟨Schema.wellKeyed_of_ofValue, Schema.ofValue_document⟩, ?_, fun h => ⟨_, h⟩⟩
  rintro ⟨value, h⟩
  exact Schema.ofValue_document (Schema.wellKeyed_of_ofValue h)

end DocSchema
