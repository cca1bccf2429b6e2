import DocSchema.Proofs.Report.DefaultCells
import DocSchema.Proofs.Report.Tables
import DocSchema.Proofs.Schema.Canonical
import DocSchema.Proofs.Schema.Numbers

/-!
# The order of keys and of items in a report

A default that is a list or an object is shown as JSON text with its keys in order, at any depth. So
the order in which a document gives the keys does not show, neither in the document of a report nor
in its workbook. Nothing else is lost: the items of lists keep their order, and defaults that differ
in more than the order of keys are shown as different texts.

A default that is itself a text may look like the text of a list. So the second half is about
defaults that are lists or objects in both schemas, or else the same.

## Main definitions

* `Json.SameOrParts`: the same value, or two values with parts
* `Json.listText`: the text of a list, item by item

## Main results

* `sameText_of_rearranged`, `rearranged_of_sameText`: when defaults are shown the same
* `reports_of_rearranged_defaults`
-/

namespace DocSchema

variable {j k : Json}

/-! ## Defaults with parts -/

/-- Two values are the same, or both of them are lists or objects. -/
def Json.SameOrParts (j k : Json) : Prop := j = k ∨ j.HasParts ∧ k.HasParts

theorem Json.Rearranged.sameOrParts (h : j.Rearranged k) : j.SameOrParts k := by
  cases h with
  | same => exact .inl rfl
  | list _ => exact .inr ⟨.list _, .list _⟩
  | object _ _ _ => exact .inr ⟨.object _, .object _⟩

theorem defaultText_of_hasParts (h : j.HasParts) : defaultText j = j.sorted.compact := by
  cases h <;> rfl

theorem Cell.ofJson_of_hasParts (h : j.HasParts) : Cell.ofJson j = .text j.sorted.compact := by
  cases h <;> rfl

/-- The text of a list: the texts of its items, with their keys in order. -/
def Json.listText (items : List Json) : String :=
  "[" ++ ", ".intercalate (items.map fun item => item.sorted.compact) ++ "]"

/-! ## What is shown the same -/

/-- Rearranged defaults have the same text in a table and the same cell in a workbook. -/
theorem sameText_of_rearranged (hkeys : j.WellKeyed) (h : j.Rearranged k) :
    SameText j k ∧ SameCell j k := by
  rcases h.sameOrParts with rfl | ⟨hj, hk⟩
  · exact ⟨rfl, rfl⟩
  · have hsorted := (Json.sorted_eq_iff hkeys).mpr h
    rw [SameText, SameCell, defaultText_of_hasParts hj, defaultText_of_hasParts hk,
      Cell.ofJson_of_hasParts hj, Cell.ofJson_of_hasParts hk, hsorted]
    exact ⟨rfl, rfl⟩

/-- Defaults with the same text in a table, or with the same cell in a workbook, are rearranged. -/
theorem rearranged_of_sameText (hkeys : j.WellKeyed) (hj : j.InLowestForm) (hk : k.InLowestForm)
    (hkind : j.SameOrParts k) (h : SameText j k ∨ SameCell j k) : j.Rearranged k := by
  rcases hkind with rfl | ⟨hjparts, hkparts⟩
  · exact .same j
  · refine (Json.compact_sorted_eq_iff hkeys hj hk).mp ?_
    rw [SameText, SameCell, defaultText_of_hasParts hjparts, defaultText_of_hasParts hkparts,
      Cell.ofJson_of_hasParts hjparts, Cell.ofJson_of_hasParts hkparts, Cell.text.injEq] at h
    exact h.elim id id

/-! ## Reports -/

variable {v u : Value} {s t : Schema}

/-- **Order of keys.** Two schemas from documents that differ in nothing but the order of keys in
their defaults have the same document and the same workbook as a report. If they differ in more than
that, in the order of items for example, then both are different. The text of a list has the texts of
its items in their order. -/
theorem reports_of_rearranged_defaults (hs : Schema.ofValue v = .ok s)
    (ht : Schema.ofValue u = .ok t) :
    (s.SameUpTo Json.Rearranged t →
      s.report.markdown = t.report.markdown ∧ s.report.workbook = t.report.workbook) ∧
    (v.Proper → u.Proper → s.SameUpTo Json.SameOrParts t → ¬ s.SameUpTo Json.Rearranged t →
      s.report.markdown ≠ t.report.markdown ∧ s.report.workbook ≠ t.report.workbook) ∧
    ∀ e ∈ s.entities, ∀ f ∈ e.fields, ∀ items, f.default = .list items →
      defaultText f.default = Json.listText items ∧
        Cell.ofJson f.default = .text (Json.listText items) := by
  have hkeys : s.AllDefaults Json.WellKeyed := Schema.wellKeyed_of_ofValue hs
  refine ⟨fun h => ?_, fun hv hu hkind hnot => ?_, fun e _ f _ items hitems => ?_⟩
  · have hshown := h.imp hkeys t.allDefaults_true fun _ _ hj _ => sameText_of_rearranged hj
    rw [Schema.markdown_eq_iff h.any, Schema.workbook_eq_iff h.any]
    exact ⟨hshown.imp hkeys t.allDefaults_true fun _ _ _ _ => And.left,
      hshown.imp hkeys t.allDefaults_true fun _ _ _ _ => And.right⟩
  · have hleft : s.AllDefaults fun j => j.WellKeyed ∧ j.InLowestForm := fun e he f hf =>
      ⟨hkeys e he f hf, Schema.inLowestForm_of_ofValue hv hs e he f hf⟩
    have hright : t.AllDefaults Json.InLowestForm := Schema.inLowestForm_of_ofValue hu ht
    rw [ne_eq, ne_eq, Schema.markdown_eq_iff hkind.any, Schema.workbook_eq_iff hkind.any]
    constructor
    · exact fun h => hnot <| (hkind.and h).imp hleft hright fun _ _ hj hk hboth =>
        rearranged_of_sameText hj.1 hj.2 hk hboth.1 (.inl hboth.2)
    · exact fun h => hnot <| (hkind.and h).imp hleft hright fun _ _ hj hk hboth =>
        rearranged_of_sameText hj.1 hj.2 hk hboth.1 (.inr hboth.2)
  · have hparts : (Json.list items).HasParts := .list items
    rw [hitems, defaultText_of_hasParts hparts, Cell.ofJson_of_hasParts hparts,
      Json.compact_sorted_list, Json.listText]
    exact ⟨rfl, rfl⟩

/-- A document with one field, for its default. -/
def documentWithDefault (default : Value) : Value :=
  .map [(.text "entities", .list [.map
    [(.text "name", .text "Note"), (.text "fields", .list [.map
      [(.text "name", .text "body"), (.text "default", default)]])]])]

/-- The schema of the document. -/
def schemaWithDefault (default : Json) : Schema where
  entities := [{ name := "Note", fields := [{ name := "body", default }] }]

theorem proper_documentWithDefault {default : Value} (h : default.Proper) :
    (documentWithDefault default).Proper := by
  have hpair {key other : String} {first second : Value} (hne : (key == other) = false)
      (hfirst : first.Proper) (hsecond : second.Proper) :
      (Value.map [(.text key, first), (.text other, second)]).Proper := by
    refine .map (List.pairwise_pair.mpr hne) ?_ ?_
    · simp [Value.Proper.text]
    · simp [hfirst, hsecond]
  have hfield := hpair (by decide : ("name" == "default") = false) (.text "body") h
  have hentity := hpair (by decide : ("name" == "fields") = false) (.text "Note")
    (.list (List.forall_mem_singleton.mpr hfield))
  exact .map (List.pairwise_singleton _ _) (by simp [Value.Proper.text])
    (List.forall_mem_singleton.mpr (.list (List.forall_mem_singleton.mpr hentity)))

theorem sameUpTo_schemaWithDefault {R : Json → Json → Prop} :
    (schemaWithDefault j).SameUpTo R (schemaWithDefault k) ↔ R j k := by
  constructor
  · intro h
    obtain ⟨hentity, -⟩ := List.forall₂_cons.mp h.entities
    exact (List.forall₂_cons.mp hentity.fields).1.default
  · intro h
    exact ⟨.cons ⟨rfl, rfl, .cons ⟨rfl, rfl, rfl, rfl, h⟩ .nil, rfl, rfl⟩ .nil, rfl⟩

/-- An object in a list in an object, neither with its keys in order. -/
def shuffledDefault : Json :=
  .object [("b", .list [.int 2, .object [("d", .int 1), ("c", .int 0)]]), ("a", .int 1)]

/-- The same with the keys in order. -/
def orderedDefault : Json :=
  .object [("a", .int 1), ("b", .list [.int 2, .object [("c", .int 0), ("d", .int 1)]])]

theorem rearranged_shuffledDefault : shuffledDefault.Rearranged orderedDefault := by
  have hinner : (Json.object [("d", .int 1), ("c", .int 0)]).Rearranged
      (.object [("c", .int 0), ("d", .int 1)]) :=
    Json.rearranged_object_iff.mpr
      ⟨_, List.forall₂_same.mpr fun m _ => ⟨rfl, .same m.2⟩, List.Perm.swap _ _ _⟩
  refine Json.rearranged_object_iff.mpr
    ⟨[("b", .list [.int 2, .object [("c", .int 0), ("d", .int 1)]]), ("a", .int 1)], ?_,
      List.Perm.swap _ _ _⟩
  exact .cons ⟨rfl, .list (.cons (.same _) (.cons hinner .nil))⟩ (.cons ⟨rfl, .same _⟩ .nil)

/-- With its keys in another order the default leaves the reports as they are. With its items in
another order a list does not. -/
theorem reports_of_swapped_keys_and_items :
    (schemaWithDefault shuffledDefault).report.markdown =
      (schemaWithDefault orderedDefault).report.markdown ∧
    (schemaWithDefault shuffledDefault).report.workbook =
      (schemaWithDefault orderedDefault).report.workbook ∧
    (schemaWithDefault (.list [.int 1, .int 2])).report.markdown ≠
      (schemaWithDefault (.list [.int 2, .int 1])).report.markdown ∧
    (schemaWithDefault (.list [.int 1, .int 2])).report.workbook ≠
      (schemaWithDefault (.list [.int 2, .int 1])).report.workbook := by
  have hitems : ¬ (Json.list [.int 1, .int 2]).Rearranged (.list [.int 2, .int 1]) := by
    rw [Json.rearranged_list_iff, List.forall₂_cons]
    rintro ⟨⟨⟩, -⟩
  have hlist (m n : Int) : (documentWithDefault (.list [.int m, .int n])).Proper :=
    proper_documentWithDefault (.list (by simp [Value.Proper.int]))
  obtain ⟨hmarkdown, hworkbook⟩ := (reports_of_rearranged_defaults
    (v := documentWithDefault shuffledDefault.toValue) (u := documentWithDefault orderedDefault.toValue)
    rfl rfl).1 (sameUpTo_schemaWithDefault.mpr rearranged_shuffledDefault)
  exact ⟨hmarkdown, hworkbook, (reports_of_rearranged_defaults
    (v := documentWithDefault (.list [.int 1, .int 2])) rfl rfl).2.1 (hlist 1 2) (hlist 2 1)
    (sameUpTo_schemaWithDefault.mpr (.inr ⟨.list _, .list _⟩))
    (mt sameUpTo_schemaWithDefault.mp hitems)⟩

end DocSchema
