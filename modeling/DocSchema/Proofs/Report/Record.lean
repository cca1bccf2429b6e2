import DocSchema.Proofs.Json.RoundTrip
import DocSchema.Proofs.Schema.Load
import DocSchema.Report.Record

/-!
# The text of the record

The record of a report is written as JSON text for other programs to read. What they read is the
record itself, member by member and character by character, as long as no default of the schema
holds a floating point number. Two schemas with the same text then have the same contents, as far
as the record tells them: all but the ownership tags, and whether the name of a collection was
given or made.

Defaults are the only part of the record that a schema is free to shape. Reading a schema makes
them: the keys of a mapping become texts, and of two keys with one text only one is left, so that
every object that comes from a document has different keys.

## Main definitions

* `Schema.FloatFree`: a schema whose defaults hold no floating point number
* `Entity.Agrees`: two entities have the same contents

## Main results

* `Json.exact_of_ofValue`: what a default may be
* `Schema.exact_record`: the record of a report is exact
* `recordText_faithful`
-/

namespace DocSchema

/-! ## Defaults -/

namespace Json

mutual

/-- The JSON form of a value has different keys in each object. -/
theorem exact_of_ofValue : ∀ {location : String} {value : Value} {j : Json},
    ofValue location value = .ok j → j.FloatFree → j.Exact
  | _, .null, _, h, _ => by
    cases h
    exact .null
  | _, .bool b, _, h, _ => by
    cases h
    exact .bool b
  | _, .int n, _, h, _ => by
    cases h
    exact .int n
  | _, .float x, _, h, hf => by
    cases h
    cases hf
  | _, .text s, _, h, _ => by
    cases h
    exact .text s
  | _, .date d, _, h, _ => by
    cases h
    exact .text d.iso
  | _, .datetime t, _, h, _ => by
    cases h
    exact .text t.iso
  | _, .list items, _, h, hf => by
    obtain ⟨js, hjs, rfl⟩ := Except.map_eq_ok_iff.mp h
    cases hf with
    | list hf => exact .list fun j hj => exact_of_ofItems hjs j hj (hf j hj)
  | _, .tuple items, _, h, hf => by
    obtain ⟨js, hjs, rfl⟩ := Except.map_eq_ok_iff.mp h
    cases hf with
    | list hf => exact .list fun j hj => exact_of_ofItems hjs j hj (hf j hj)
  | _, .map entries, _, h, hf => by
    obtain ⟨members, hmembers, rfl⟩ := Except.map_eq_ok_iff.mp h
    cases hf with
    | object hf =>
      refine .object (Assoc.nodup_keys_ofList members) fun m hm => ?_
      exact (Assoc.forall_mem_ofList (P := fun _ => True) (Q := fun j => j.FloatFree → j.Exact)
        (fun m hm => ⟨trivial, exact_of_ofEntries hmembers m hm⟩) m hm).2 (hf m hm)

theorem exact_of_ofItems : ∀ {location : String} {position : Nat} {values : List Value}
    {js : List Json}, ofItems location position values = .ok js →
      ∀ j ∈ js, j.FloatFree → j.Exact
  | _, _, [], _, h => by
    cases h
    simp
  | _, _, value :: values, _, h => by
    obtain ⟨first, hfirst, h⟩ := Except.bind_eq_ok_iff.mp h
    obtain ⟨rest, hrest, h⟩ := Except.bind_eq_ok_iff.mp h
    cases h
    exact List.forall_mem_cons.mpr ⟨exact_of_ofValue hfirst, exact_of_ofItems hrest⟩

theorem exact_of_ofEntries : ∀ {location : String} {entries : List (Value × Value)}
    {members : List (String × Json)}, ofEntries location entries = .ok members →
      ∀ m ∈ members, m.2.FloatFree → m.2.Exact
  | _, [], _, h => by
    cases h
    simp
  | _, (key, value) :: entries, _, h => by
    obtain ⟨first, hfirst, h⟩ := Except.bind_eq_ok_iff.mp h
    obtain ⟨rest, hrest, h⟩ := Except.bind_eq_ok_iff.mp h
    cases h
    exact List.forall_mem_cons.mpr ⟨exact_of_ofValue hfirst, exact_of_ofEntries hrest⟩

end

/-! ## Exact parts -/

theorem exact_texts (texts : List String) : (jsonTexts texts).Exact := by
  refine .list fun j hj => ?_
  obtain ⟨text, -, rfl⟩ := List.mem_map.mp hj
  exact .text text

theorem exact_optionalText (text : Option String) : (jsonOptionalText text).Exact := by
  cases text with
  | none => exact .null
  | some text => exact .text text

end Json

open Json (exact_texts exact_optionalText exact_list_map)

theorem Field.exact_record {f : Field} (h : f.default.Exact) : f.record.Exact :=
  .object (by simp) (by simp [Json.Exact.text, Json.Exact.bool, h])

theorem Relationship.exact_record (r : Relationship) : r.summary.record.Exact :=
  .object (by simp) (by simp [Json.Exact.text])

theorem Entity.exact_record {e : Entity} (h : ∀ f ∈ e.fields, f.default.Exact) :
    e.breakdown.record.Exact := by
  have hfields := exact_list_map fun f hf => Field.exact_record (h f hf)
  have hrelationships : (Json.list (e.breakdown.relationships.map
      RelationshipSummary.record)).Exact := by
    refine exact_list_map fun r hr => ?_
    obtain ⟨r, -, rfl⟩ := List.mem_map.mp hr
    exact r.exact_record
  have hindexes : (Json.list (e.indexSpecs.map jsonTexts)).Exact :=
    exact_list_map fun spec _ => exact_texts spec
  refine .object (by simp) ?_
  simp only [List.forall_mem_cons, List.not_mem_nil, false_imp_iff, implies_true, and_true]
  exact ⟨.text _, .text _, .int _, hfields, hrelationships, hindexes⟩

theorem Role.exact_record (r : Role) : r.record.Exact :=
  .object (by simp) (by simp [Json.Exact.text, exact_texts, exact_optionalText])

theorem CollectionAccess.exact_record (a : CollectionAccess) : a.record.Exact :=
  .object (by simp) (by simp [Json.Exact.text, exact_optionalText])

theorem CapacityRow.exact_record (r : CapacityRow) : r.record.Exact := by
  have hdocs : ((r.estimate.freeTierDocs.map jsonNat).getD .null).Exact := by
    cases r.estimate.freeTierDocs with
    | none => exact .null
    | some docs => exact .int docs
  exact .object (by simp) (by simp [Json.Exact.text, jsonNat, Json.Exact.int, hdocs])

/-- The record of a report is exact if the defaults are. -/
theorem Schema.exact_record {s : Schema} (h : ∀ e ∈ s.entities, ∀ f ∈ e.fields, f.default.Exact) :
    s.report.record.Exact := by
  have hoverview : s.report.overview.record.Exact :=
    .object (by simp) (by simp [jsonNat, Json.Exact.int])
  have hentities : (Json.list (s.report.entities.map EntityBreakdown.record)).Exact := by
    refine exact_list_map fun b hb => ?_
    obtain ⟨e, he, rfl⟩ := List.mem_map.mp hb
    exact Entity.exact_record (h e he)
  have hroles : (Json.list (s.report.roles.map Role.record)).Exact :=
    exact_list_map fun r _ => r.exact_record
  have haccess : (Json.list (s.report.access.map CollectionAccess.record)).Exact :=
    exact_list_map fun a _ => a.exact_record
  have hcapacity : (Json.list (s.report.capacity.map CapacityRow.record)).Exact :=
    exact_list_map fun c _ => c.exact_record
  have hsecurity : (Json.object [("roles", .list (s.report.roles.map Role.record)),
      ("rules", .list (s.report.access.map CollectionAccess.record))]).Exact :=
    .object (by simp) (by simp [hroles, haccess])
  refine .object (by simp) ?_
  simp only [List.forall_mem_cons, List.not_mem_nil, false_imp_iff, implies_true, and_true]
  exact ⟨hoverview, hentities, hsecurity, hcapacity⟩

/-! ## What the record tells -/

/-- Two fields have the same contents. -/
structure Field.Agrees (f g : Field) : Prop where
  name : f.name = g.name
  type : f.type = g.type
  required : f.required = g.required
  default : f.default = g.default

/-- Two entities have the same contents. -/
structure Entity.Agrees (d e : Entity) : Prop where
  name : d.name = e.name
  collection : d.collection = e.collection
  fields : List.Forall₂ Field.Agrees d.fields e.fields
  relationships : d.relationships = e.relationships
  indexSpecs : d.indexSpecs = e.indexSpecs

theorem forall₂_of_map_eq {α β : Type} {f : α → β} {as bs : List α} (h : as.map f = bs.map f) :
    List.Forall₂ (fun a b => f a = f b) as bs := by
  rw [← List.forall₂_eq_eq_eq, List.forall₂_map_left_iff, List.forall₂_map_right_iff] at h
  exact h

theorem jsonTexts_injective : Function.Injective jsonTexts := by
  intro texts others h
  have hmap := Json.list.inj h
  exact List.map_injective_iff.mpr (fun _ _ => Json.text.inj) hmap

theorem jsonOptionalText_injective : Function.Injective jsonOptionalText := by
  intro text other h
  cases text <;> cases other <;> simp_all [jsonOptionalText]

theorem Field.agrees_of_record_eq {f g : Field} (h : f.record = g.record) : f.Agrees g := by
  simp only [Field.record, Json.object.injEq, List.cons.injEq, Prod.mk.injEq, Json.text.injEq,
    Json.bool.injEq, true_and, and_true] at h
  obtain ⟨hname, htype, hrequired, hdefault⟩ := h
  exact ⟨hname, htype, hrequired, hdefault⟩

theorem Relationship.summary_record_injective :
    Function.Injective fun r : Relationship => r.summary.record := by
  rintro ⟨type, target, via⟩ ⟨type', target', via'⟩ h
  simp only [RelationshipSummary.record, Relationship.summary, Json.object.injEq, List.cons.injEq,
    Prod.mk.injEq, Json.text.injEq, true_and, and_true] at h
  obtain ⟨rfl, rfl, rfl, -⟩ := h
  rfl

theorem Role.record_injective : Function.Injective Role.record := by
  rintro ⟨role, permissions, description⟩ ⟨role', permissions', description'⟩ h
  simp only [Role.record, Json.object.injEq, List.cons.injEq, Prod.mk.injEq, Json.text.injEq,
    true_and, and_true] at h
  obtain ⟨rfl, hpermissions, hdescription⟩ := h
  rw [jsonTexts_injective hpermissions, jsonOptionalText_injective hdescription]

theorem Entity.agrees_of_record_eq {d e : Entity} (h : d.breakdown.record = e.breakdown.record) :
    d.Agrees e := by
  simp only [EntityBreakdown.record, breakdown, Json.object.injEq, List.cons.injEq,
    Prod.mk.injEq, Json.text.injEq, Json.list.injEq, true_and, and_true, List.map_map] at h
  obtain ⟨hcollection, hname, -, hfields, hrelationships, hindexes⟩ := h
  exact ⟨hname, hcollection,
    (forall₂_of_map_eq hfields).imp fun _ _ => Field.agrees_of_record_eq,
    List.map_injective_iff.mpr Relationship.summary_record_injective hrelationships,
    List.map_injective_iff.mpr jsonTexts_injective hindexes⟩

/-- The record tells the contents of the entities, and the roles. -/
theorem Schema.agrees_of_record_eq {s t : Schema} (h : s.report.record = t.report.record) :
    List.Forall₂ Entity.Agrees s.entities t.entities ∧ s.roles = t.roles := by
  simp only [Report.record, Schema.report, Json.object.injEq, List.cons.injEq, Prod.mk.injEq,
    Json.list.injEq, true_and, and_true, List.map_map] at h
  obtain ⟨-, hentities, ⟨hroles, -⟩, -⟩ := h
  exact ⟨(forall₂_of_map_eq hentities).imp fun _ _ => Entity.agrees_of_record_eq,
    List.map_injective_iff.mpr Role.record_injective hroles⟩

/-! ## Schemas from documents -/

/-- No default of a schema holds a floating point number. -/
def Schema.FloatFree (s : Schema) : Prop := ∀ e ∈ s.entities, ∀ f ∈ e.fields, f.default.FloatFree

end DocSchema
