import DocSchema.Access.Rules
import DocSchema.Index
import DocSchema.Proofs.Text.Lines
import DocSchema.Report.Record
import Mathlib.Data.List.Forall2

/-!
# The outputs of a schema keep step

The rules file, the index manifest and the record of the report are written by passes over the
schema that do not know of each other, and each of them works out the collection and the policy of
an entity for itself. This module cuts the three outputs into the parts that belong to one entity
each, and shows that the parts at one position speak of the same entity.

## Cutting the outputs

`EntityOutputs` is what the outputs say about one entity: its block of the rules file, its entries
in three lists of the record, and its run of the manifest. That the outputs are made up of such
parts and of nothing else is a statement about whole texts and whole JSON values, where the lists
are found under their keys by `Json.at?`.

## Owners

Two predicates on fields say who owns a record: one for access rules, one for indexes. The second
one is the narrower, so the field that the rules go by is never declared behind the first field
that the derived indexes go by. This holds of the first matches of any two such predicates.

## Main definitions

* `Json.member?`, `Json.at?`
* `EntityOutputs`, `EntityOutputs.Fits`

## Main results

* `find?_le_find?_of_imp`: the first match of a wider predicate comes first
* `outputs_aligned`
-/

namespace DocSchema

/-! ## Looking into JSON -/

namespace Json

/-- The value of a member of an object. -/
def member? (key : String) : Json → Option Json
  | object members => Assoc.find? key members
  | _ => none

/-- The value at the end of a way through objects. -/
def at? : List String → Json → Option Json
  | [], j => some j
  | key :: keys, j => (j.member? key).bind (at? keys)

end Json

/-! ## What belongs to one entity -/

/-- The lines of a block of the rules file. -/
def rulesBlock (comment path : String) (policy : AccessPolicy) : List String :=
  [comment, "    match /" ++ path ++ "/\x7bdocId\x7d \x7b"]
    ++ policy.lines.map (fun line => "      " ++ line) ++ ["    \x7d", ""]

/-- What the outputs of a schema say about one entity. -/
structure EntityOutputs where
  block : List String
  collection : Json
  rights : Json
  capacity : Json
  indexes : List Json

/-- The field that the access rules of an entity go by is declared at or before the first field
that its derived indexes go by, which is the one that leads the first of these indexes. -/
def Entity.OwnsBeforeIndexing (e : Entity) : Prop :=
  ∃ (i j : Nat) (owner first time : Field), i ≤ j ∧ e.fields[i]? = some owner ∧
    e.policy = .ownership owner.name ∧ e.fields[j]? = some first ∧ first.grantsIndex = true ∧
    (∀ k < j, ∀ f, e.fields[k]? = some f → f.grantsIndex = false) ∧
    e.ownerTimeIndexes.head? = some
      { collection := e.collection
        fields := [{ path := first.name }, { path := time.name, order := .descending }] }

/-- The outputs fit an entity: they name its collection throughout, and its policy where they name
one. -/
structure EntityOutputs.Fits (e : Entity) (o : EntityOutputs) : Prop where
  block : ∃ comment, o.block = rulesBlock comment e.collection e.policy
  name : o.collection.member? "name" = some (.text e.collection)
  rights : o.rights.member? "collection" = some (.text e.collection)
  capacity : o.capacity.member? "collection" = some (.text e.collection)
  /-- The run of the manifest holds the indexes of the entity and no other ones. -/
  indexes : o.indexes = e.indexes.map CompositeIndex.json
  group : ∀ index ∈ o.indexes, index.member? "collectionGroup" = some (.text e.collection)
  policy : o.rights.member? "policy" = some (.text e.policy.text)
  ownerField : o.rights.member? "ownerField" = some (jsonOptionalText e.policy.ownerField)
  derived : e.ownerTimeIndexes ≠ [] → e.OwnsBeforeIndexing

/-! ## Owners -/

theorem Field.grantsAccess_of_grantsIndex {f : Field} (h : f.grantsIndex = true) :
    f.grantsAccess = true := by
  unfold grantsIndex at h
  unfold grantsAccess
  cases hown : f.resolvedOwnership with
  | owner => rfl
  | accessOwner =>
    rw [hown] at h
    cases h
  | none =>
    rw [hown] at h
    cases h

/-- The first element with a property is not behind the first one with a narrower property. -/
theorem find?_le_find?_of_imp {α : Type} {p q : α → Bool} {as : List α} {b : α}
    (h : ∀ a, q a = true → p a = true) (hq : as.find? q = some b) :
    ∃ (i j : Nat) (a : α), i ≤ j ∧ as.find? p = some a ∧ as[i]? = some a ∧ as[j]? = some b ∧
      ∀ k < j, ∀ c, as[k]? = some c → q c = false := by
  obtain ⟨hqb, j, hj, hjb, hbefore⟩ := List.find?_eq_some_iff_getElem.mp hq
  obtain ⟨a, ha⟩ : ∃ a, as.find? p = some a :=
    Option.isSome_iff_exists.mp (List.find?_isSome.mpr ⟨b, hjb ▸ List.getElem_mem hj, h b hqb⟩)
  obtain ⟨-, i, hi, hia, hfirst⟩ := List.find?_eq_some_iff_getElem.mp ha
  have hle : i ≤ j := by
    by_contra hlt
    have hnot := hfirst j (by omega)
    rw [hjb, h b hqb] at hnot
    cases hnot
  refine ⟨i, j, a, hle, ha, by rw [List.getElem?_eq_getElem hi, hia],
    by rw [List.getElem?_eq_getElem hj, hjb], fun k hk c hc => ?_⟩
  obtain ⟨hlen, rfl⟩ := List.getElem?_eq_some_iff.mp hc
  simpa using hbefore k hk

/-- The first of the derived indexes is about the first owner field and the first time. -/
theorem Entity.head?_ownerTimeIndexes {e : Entity} (h : e.ownerTimeIndexes ≠ []) :
    ∃ owner time : Field, e.fields.find? Field.grantsIndex = some owner ∧
      e.ownerTimeIndexes.head? = some
        { collection := e.collection
          fields := [{ path := owner.name }, { path := time.name, order := .descending }] } := by
  have howners : e.indexOwners.head? = e.fields.find? Field.grantsIndex := List.head?_filter
  rw [← howners]
  unfold ownerTimeIndexes at h ⊢
  cases ho : e.indexOwners with
  | nil =>
    rw [ho] at h
    exact absurd rfl h
  | cons owner owners =>
    cases ht : e.timestamps with
    | nil =>
      rw [ht] at h
      exact absurd (by simp) h
    | cons time times => exact ⟨owner, time, rfl, rfl⟩

theorem Entity.ownsBeforeIndexing {e : Entity} (h : e.ownerTimeIndexes ≠ []) :
    e.OwnsBeforeIndexing := by
  obtain ⟨first, time, hfirst, hhead⟩ := Entity.head?_ownerTimeIndexes h
  obtain ⟨i, j, owner, hle, hfind, hi, hj, hbefore⟩ :=
    find?_le_find?_of_imp (fun _ => Field.grantsAccess_of_grantsIndex) hfirst
  refine ⟨i, j, owner, first, time, hle, hi, ?_, hj, List.find?_some hfirst, hbefore, hhead⟩
  rw [policy, hfind]

/-! ## The parts of the outputs -/

/-- What the outputs say about an entity of a schema. -/
def Entity.outputs (e : Entity) : EntityOutputs where
  block := e.block
  collection := e.breakdown.record
  rights := e.access.record
  capacity := ({ collection := e.collection, estimate := e.capacity } : CapacityRow).record
  indexes := e.indexes.map CompositeIndex.json

theorem Entity.collection_of_mem_indexes {e : Entity} {index : CompositeIndex}
    (h : index ∈ e.indexes) : index.collection = e.collection := by
  rcases List.mem_append.mp h with h | h
  · obtain ⟨owner, -, h⟩ := List.mem_flatMap.mp h
    obtain ⟨time, -, rfl⟩ := List.mem_map.mp h
    rfl
  · obtain ⟨spec, -, rfl⟩ := List.mem_map.mp h
    rfl

theorem Entity.fits_outputs (e : Entity) : e.outputs.Fits e where
  block := ⟨"    // " ++ e.name ++ " collection", rfl⟩
  name := by rfl
  rights := by rfl
  capacity := by rfl
  indexes := rfl
  group := by
    intro index hindex
    obtain ⟨i, hi, rfl⟩ := List.mem_map.mp hindex
    rw [← collection_of_mem_indexes hi]
    rfl
  policy := by rfl
  ownerField := by rfl
  derived := ownsBeforeIndexing

/-- **The outputs of a schema keep step.** The rules file is its header, one block for each entity
in order, and its footer; the record of the report has one entry for each entity in its lists of
collections, rights and capacity estimates; and the manifest is one run of indexes for each
entity. The parts at one position name the same collection and the same policy, and an entity with
derived indexes has the ownership policy, whose owner field is declared at or before the first
field that these indexes go by. -/
theorem outputs_aligned (s : Schema) :
    ∃ outputs : List EntityOutputs,
      rulesText s = Text.unlines headerLines
        ++ String.join (outputs.map fun o => Text.unlines o.block) ++ Text.unlines footerLines ∧
      s.report.record.at? ["collections"] = some (.list (outputs.map EntityOutputs.collection)) ∧
      s.report.record.at? ["security", "rules"] = some (.list (outputs.map EntityOutputs.rights)) ∧
      s.report.record.at? ["capacity"] = some (.list (outputs.map EntityOutputs.capacity)) ∧
      (manifestJson s.indexes).at? ["indexes"] =
        some (.list (outputs.flatMap EntityOutputs.indexes)) ∧
      List.Forall₂ (fun e o => EntityOutputs.Fits e o) s.entities outputs := by
  refine ⟨s.entities.map Entity.outputs, ?_, ?_, ?_, ?_, ?_, ?_⟩
  · rw [rulesText, rulesLines, Text.unlines_append, Text.unlines_append, Text.unlines_flatMap,
      List.map_map]
    rfl
  · rw [List.map_map]
    simp [Json.at?, Json.member?, Report.record, Schema.report, Assoc.find?, Function.comp_def,
      Entity.outputs]
  · rw [List.map_map]
    simp [Json.at?, Json.member?, Report.record, Schema.report, Assoc.find?, Function.comp_def,
      Entity.outputs]
  · rw [List.map_map]
    simp [Json.at?, Json.member?, Report.record, Schema.report, Assoc.find?, Function.comp_def,
      Entity.outputs]
  · simp [Json.at?, Json.member?, manifestJson, Assoc.find?, Schema.indexes, Entity.outputs,
      List.map_flatMap, List.flatMap_map]
  · rw [List.forall₂_map_right_iff, List.forall₂_same]
    exact fun e _ => e.fits_outputs

end DocSchema
