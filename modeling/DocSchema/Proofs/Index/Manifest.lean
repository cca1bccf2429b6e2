import DocSchema.Index
import DocSchema.Proofs.Json.RoundTrip

/-!
# The text of the index manifest

The manifest lists the composite indexes of a schema. It holds texts only, so a reader of JSON gets
back what was written, whatever characters the names of collections and fields have. The manifest
is also enough to tell the indexes: nothing about an index is left out of it.

## Main results

* `manifestJson_injective`: a manifest tells its indexes
* `manifestText_faithful`: reading the text of a manifest gives back its indexes
-/

namespace DocSchema

open Json (exact_list_map)

/-! ## Manifests are exact -/

theorem IndexField.exact_json (f : IndexField) : f.json.Exact :=
  .object (by simp) (by simp [Json.Exact.text])

theorem CompositeIndex.exact_json (i : CompositeIndex) : i.json.Exact := by
  have hfields : (Json.list (i.fields.map IndexField.json)).Exact :=
    exact_list_map fun f _ => f.exact_json
  exact .object (by simp) (by simp [Json.Exact.text, hfields])

theorem exact_manifestJson (indexes : List CompositeIndex) : (manifestJson indexes).Exact := by
  have hindexes : (Json.list (indexes.map CompositeIndex.json)).Exact :=
    exact_list_map fun i _ => i.exact_json
  have hoverrides : (Json.list []).Exact := .list (by simp)
  exact .object (by simp) (by simp [hindexes, hoverrides])

/-! ## Manifests tell their indexes -/

theorem SortOrder.text_injective : Function.Injective SortOrder.text := by
  rintro (_ | _) (_ | _) h
  · rfl
  · simp [text] at h
  · simp [text] at h
  · rfl

theorem IndexField.json_injective : Function.Injective IndexField.json := by
  rintro ⟨path, order⟩ ⟨path', order'⟩ h
  simp only [json, Json.object.injEq, List.cons.injEq, Prod.mk.injEq, Json.text.injEq, true_and,
    and_true] at h
  obtain ⟨rfl, horder⟩ := h
  rw [SortOrder.text_injective horder]

theorem CompositeIndex.json_injective : Function.Injective CompositeIndex.json := by
  rintro ⟨collection, fields⟩ ⟨collection', fields'⟩ h
  simp only [json, Json.object.injEq, List.cons.injEq, Prod.mk.injEq, Json.text.injEq,
    Json.list.injEq, true_and, and_true] at h
  obtain ⟨rfl, hfields⟩ := h
  rw [List.map_injective_iff.mpr IndexField.json_injective hfields]

theorem manifestJson_injective : Function.Injective manifestJson := by
  intro indexes others h
  simp only [manifestJson, Json.object.injEq, List.cons.injEq, Prod.mk.injEq, Json.list.injEq,
    true_and, and_true] at h
  exact List.map_injective_iff.mpr CompositeIndex.json_injective h

/-- **The text of the manifest is faithful.** Reading the text of the manifest of a schema gives an
object with two members, of which the second is an empty list. The first lists the indexes of the
schema in their order, each with its collection, the scope of one collection, and the names and
directions of its fields. So two schemas with the same text have the same indexes. -/
theorem manifestText_faithful (s : Schema) :
    Json.read? (manifestText s.indexes) = some (.object
      [("indexes", .list (s.indexes.map fun i => .object
          [("collectionGroup", .text i.collection), ("queryScope", .text "COLLECTION"),
            ("fields", .list (i.fields.map fun f => .object
              [("fieldPath", .text f.path), ("order", .text f.order.text)]))])),
        ("fieldOverrides", .list [])]) ∧
      ∀ t : Schema, manifestText t.indexes = manifestText s.indexes → t.indexes = s.indexes := by
  have hexact := exact_manifestJson s.indexes
  refine ⟨hexact.read?_pretty, fun t htext => ?_⟩
  exact manifestJson_injective ((exact_manifestJson t.indexes).eq_of_pretty_eq hexact htext)

end DocSchema
