import DocSchema.Proofs.Index.Order
import DocSchema.Proofs.Schema.Violations
import DocSchema.Schema.Load

/-!
# The paths of an index

A database takes an index that lists some path, none of them blank and none of them twice. The check
of a schema is there to keep other indexes out of the manifest, and this module says how far it does
so.

It goes far for the pairs of an owner and a time: their paths are names of fields, which the check
looks at, so that none is blank and different fields have different names. But a field that is an
owner and a time is paired with itself too, since every owner is paired with every time. Of the paths
that an entity lists for an index of its own the check only asks that there are any. They need not be
names of fields, and they go into the manifest as they are.

## Main definitions

* `CompositeIndex.paths`, `CompositeIndex.Acceptable`

## Main results

* `indexes_of_no_violations`: what the check of a schema ensures, and when that is enough
* `doubtfulIndexes`: a schema without violations for which it is not
-/

namespace DocSchema

/-- The paths that an index lists, in its order. -/
def CompositeIndex.paths (i : CompositeIndex) : List String := i.fields.map IndexField.path

/-- An index lists some path, none is blank and none is listed twice. -/
structure CompositeIndex.Acceptable (i : CompositeIndex) : Prop where
  nonempty : i.paths ≠ []
  named : ∀ path ∈ i.paths, Text.strip path ≠ ""
  distinct : i.paths.Nodup

namespace Entity

variable {e : Entity}

/-! ## Pairs of owners and times -/

theorem exists_pair_of_mem_ownerTimeIndexes {i : CompositeIndex} (h : i ∈ e.ownerTimeIndexes) :
    ∃ owner ∈ e.owners, ∃ time ∈ e.times, i.paths = [owner.name, time.name] := by
  rw [ownerTimeIndexes, indexOwners_eq, timestamps_eq] at h
  obtain ⟨owner, howner, h⟩ := List.mem_flatMap.mp h
  obtain ⟨time, htime, rfl⟩ := List.mem_map.mp h
  exact ⟨owner, howner, time, htime, rfl⟩

theorem exists_index_of_pair {owner time : Field} (howner : owner ∈ e.owners)
    (htime : time ∈ e.times) : ∃ i ∈ e.ownerTimeIndexes, i.paths = [owner.name, time.name] := by
  rw [← indexOwners_eq] at howner
  rw [← timestamps_eq] at htime
  exact ⟨_, List.mem_flatMap.mpr ⟨owner, howner, List.mem_map_of_mem htime⟩, rfl⟩

/-- In a sound entity the names of two fields differ if the fields do. -/
theorem IsSound.nodup_names_iff (h : e.IsSound) {f g : Field} (hf : f ∈ e.fields)
    (hg : g ∈ e.fields) : [f.name, g.name].Nodup ↔ f ≠ g := by
  rw [List.nodup_cons, List.mem_singleton, and_iff_left (List.nodup_singleton _)]
  refine not_congr ⟨fun hname => ?_, congrArg Field.name⟩
  exact List.inj_on_of_nodup_map h.distinctFields hf hg hname

theorem IsSound.named_names (h : e.IsSound) {f g : Field} (hf : f ∈ e.fields) (hg : g ∈ e.fields) :
    ∀ path ∈ [f.name, g.name], Text.strip path ≠ "" := by
  rw [List.forall_mem_cons, List.forall_mem_singleton]
  exact ⟨h.fieldNames f hf, h.fieldNames g hg⟩

/-- In a sound entity a pair is acceptable unless a field is paired with itself. -/
theorem IsSound.acceptable_pair_iff (h : e.IsSound) {owner time : Field} (howner : owner ∈ e.fields)
    (htime : time ∈ e.fields) {i : CompositeIndex} (hi : i.paths = [owner.name, time.name]) :
    i.Acceptable ↔ owner ≠ time := by
  rw [← h.nodup_names_iff howner htime]
  constructor
  · intro hacceptable
    rw [← hi]
    exact hacceptable.distinct
  · intro hdistinct
    exact ⟨by simp [hi], hi ▸ h.named_names howner htime, hi ▸ hdistinct⟩

/-! ## Listed indexes -/

/-- A listed index has the paths of its specification. -/
theorem map_paths_listedIndexes (e : Entity) :
    e.listedIndexes.map CompositeIndex.paths = e.indexSpecs := by
  rw [listedIndexes, List.map_map]
  refine (List.map_congr_left fun spec _ => ?_).trans (List.map_id _)
  exact (List.map_map ..).trans (List.map_id spec)

theorem mem_indexSpecs_iff {spec : List String} :
    spec ∈ e.indexSpecs ↔ ∃ i ∈ e.listedIndexes, i.paths = spec := by
  rw [← e.map_paths_listedIndexes, List.mem_map]

/-! ## All indexes of an entity -/

theorem mem_indexes_iff {i : CompositeIndex} :
    i ∈ e.indexes ↔ i ∈ e.ownerTimeIndexes ∨ i ∈ e.listedIndexes := List.mem_append

theorem IsSound.paths_ne_nil (h : e.IsSound) {i : CompositeIndex} (hi : i ∈ e.indexes) :
    i.paths ≠ [] := by
  rcases mem_indexes_iff.mp hi with hi | hi
  · obtain ⟨owner, -, time, -, hpaths⟩ := exists_pair_of_mem_ownerTimeIndexes hi
    simp [hpaths]
  · exact h.indexSpecs i.paths (mem_indexSpecs_iff.mpr ⟨i, hi, rfl⟩)

/-- The indexes of an entity are acceptable if no field is an owner and a time, and no
specification has a blank path or one path twice. -/
structure AsksWell (e : Entity) : Prop where
  apart : ∀ f ∈ e.fields, ¬ (f.OwnsIndexes ∧ f.type = "timestamp")
  named : ∀ spec ∈ e.indexSpecs, ∀ path ∈ spec, Text.strip path ≠ ""
  distinct : ∀ spec ∈ e.indexSpecs, spec.Nodup

theorem mem_owners_iff {f : Field} : f ∈ e.owners ↔ f ∈ e.fields ∧ f.OwnsIndexes := by
  rw [owners, List.mem_filter, decide_eq_true_iff]

theorem mem_times_iff {f : Field} : f ∈ e.times ↔ f ∈ e.fields ∧ f.type = "timestamp" := by
  rw [times, List.mem_filter, decide_eq_true_iff]

theorem IsSound.acceptable_indexes_iff (h : e.IsSound) :
    (∀ i ∈ e.indexes, i.Acceptable) ↔ e.AsksWell := by
  constructor
  · intro hall
    refine ⟨fun f hf hboth => ?_, fun spec hspec => ?_, fun spec hspec => ?_⟩
    · -- the field would be paired with itself
      obtain ⟨i, hi, hpaths⟩ := exists_index_of_pair (mem_owners_iff.mpr ⟨hf, hboth.1⟩)
        (mem_times_iff.mpr ⟨hf, hboth.2⟩)
      exact (h.acceptable_pair_iff hf hf hpaths).mp (hall i (mem_indexes_iff.mpr (.inl hi))) rfl
    · obtain ⟨i, hi, rfl⟩ := mem_indexSpecs_iff.mp hspec
      exact (hall i (mem_indexes_iff.mpr (.inr hi))).named
    · obtain ⟨i, hi, rfl⟩ := mem_indexSpecs_iff.mp hspec
      exact (hall i (mem_indexes_iff.mpr (.inr hi))).distinct
  · intro hwell i hi
    rcases mem_indexes_iff.mp hi with hpair | hlisted
    · obtain ⟨owner, howner, time, htime, hpaths⟩ := exists_pair_of_mem_ownerTimeIndexes hpair
      rw [mem_owners_iff] at howner
      rw [mem_times_iff] at htime
      refine (h.acceptable_pair_iff howner.1 htime.1 hpaths).mpr ?_
      rintro rfl
      exact hwell.apart owner howner.1 ⟨howner.2, htime.2⟩
    · have hspec := mem_indexSpecs_iff.mpr ⟨i, hlisted, rfl⟩
      exact ⟨h.paths_ne_nil hi, hwell.named _ hspec, hwell.distinct _ hspec⟩

end Entity

/-! ## Schemas -/

/-- **What the check of a schema does for the manifest.** In a schema without violations every index
lists some path. No path of a pair is blank, and it has one path twice exactly if its owner is its
time. A listed index has the paths that were listed for it. So all indexes are acceptable exactly if
no field is an owner and a time, and no path is listed blank or twice for one index. -/
theorem indexes_of_no_violations (s : Schema) (h : s.violations = []) :
    (∀ i ∈ s.indexes, i.paths ≠ []) ∧
      (∀ e ∈ s.entities, ∀ i ∈ e.ownerTimeIndexes, ∃ owner ∈ e.owners, ∃ time ∈ e.times,
        i.paths = [owner.name, time.name] ∧ (∀ path ∈ i.paths, Text.strip path ≠ "") ∧
          (i.paths.Nodup ↔ owner ≠ time)) ∧
      (∀ e ∈ s.entities, e.listedIndexes.map CompositeIndex.paths = e.indexSpecs) ∧
      ((∀ i ∈ s.indexes, i.Acceptable) ↔ ∀ e ∈ s.entities, e.AsksWell) := by
  rw [s.violations_eq_findings, s.findings_eq_nil_iff] at h
  have hsound := h.entities
  simp only [Schema.indexes, List.forall_mem_flatMap]
  refine ⟨fun e he i hi => (hsound e he).paths_ne_nil hi, fun e he i hi => ?_,
    fun e _ => e.map_paths_listedIndexes,
    forall₂_congr fun e he => (hsound e he).acceptable_indexes_iff⟩
  obtain ⟨owner, howner, time, htime, hpaths⟩ := Entity.exists_pair_of_mem_ownerTimeIndexes hi
  have hfields : owner ∈ e.fields ∧ time ∈ e.fields :=
    ⟨(Entity.mem_owners_iff.mp howner).1, (Entity.mem_times_iff.mp htime).1⟩
  refine ⟨owner, howner, time, htime, hpaths, ?_, ?_⟩
  · exact hpaths ▸ (hsound e he).named_names hfields.1 hfields.2
  · exact hpaths ▸ (hsound e he).nodup_names_iff hfields.1 hfields.2

/-- Notes with an owner and a time, and an index of their own. -/
def datedNotes : Schema where
  entities :=
    [{ name := "Note"
       fields := [{ name := "userId" }, { name := "createdAt", type := "timestamp" }]
       indexSpecs := [["title", "createdAt"]] }]

/-- All indexes of these notes are acceptable. -/
theorem datedNotes_acceptable :
    datedNotes.violations = [] ∧
      datedNotes.indexes.map CompositeIndex.paths = [["userId", "createdAt"], ["title", "createdAt"]] ∧
      ∀ i ∈ datedNotes.indexes, i.Acceptable := by
  have hnone : datedNotes.violations = [] := by rfl
  refine ⟨hnone, by rfl, (indexes_of_no_violations datedNotes hnone).2.2.2.mpr ?_⟩
  refine List.forall_mem_singleton.mpr ⟨?_, ?_, ?_⟩
  · exact List.forall_mem_cons.mpr ⟨by decide, List.forall_mem_singleton.mpr (by decide)⟩
  · exact List.forall_mem_singleton.mpr (by decide)
  · exact List.forall_mem_singleton.mpr (by decide)

/-- A document whose only field is an owner and a time, and which lists a blank path and one path
twice. -/
def doubtfulDocument : Value :=
  .map [(.text "entities", .list [.map
    [(.text "name", .text "Note"),
     (.text "fields", .list [.map
       [(.text "name", .text "userId"), (.text "type", .text "timestamp")]]),
     (.text "indexSpecs", .list [.list [.text " "], .list [.text "a", .text "a"]])]])]

/-- The document is a schema without violations, and none of its indexes is acceptable: the pair and
one listed index have a path twice, and the other listed index has a blank path. -/
theorem doubtfulIndexes :
    ∃ s, Schema.ofValue doubtfulDocument = .ok s ∧ s.violations = [] ∧
      s.indexes.map CompositeIndex.paths = [["userId", "userId"], [" "], ["a", "a"]] ∧
      ∀ i ∈ s.indexes, ¬ i.Acceptable := by
  refine ⟨⟨[{ name := "Note", fields := [{ name := "userId", type := "timestamp" }]
              indexSpecs := [[" "], ["a", "a"]] }], []⟩, by rfl, by rfl, by rfl, ?_⟩
  intro i hi h
  have hpaths : i.paths ∈ [["userId", "userId"], [" "], ["a", "a"]] := List.mem_map_of_mem hi
  simp only [List.mem_cons, List.not_mem_nil, or_false] at hpaths
  rcases hpaths with hpaths | hpaths | hpaths
  · exact absurd (hpaths ▸ h.distinct) (by decide)
  · exact h.named " " (hpaths ▸ List.mem_singleton_self _) (by decide)
  · exact absurd (hpaths ▸ h.distinct) (by decide)

end DocSchema
