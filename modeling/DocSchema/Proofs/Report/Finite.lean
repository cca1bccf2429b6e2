import DocSchema.Proofs.Json.Finite
import DocSchema.Report.Record
import DocSchema.Schema.Load

/-!
# When the record is JSON

The record of a report is written for readers of JSON. Apart from the defaults, it is made of
texts, truth values and integers only. A default may hold any floating point number that a document
can, and an infinite one, or one that is not a number, makes the whole text unreadable.

## Main definitions

* `Schema.Finite`: a schema whose defaults hold finite numbers only

## Main results

* `Schema.finite_record_iff`: the record is finite exactly when the defaults are
* `recordText_isText_iff`: the text of the record is JSON exactly when the defaults are finite
-/

namespace DocSchema

namespace Json

attribute [simp] Finite.null Finite.bool Finite.int Finite.text

@[simp] theorem finite_list_iff {items : List Json} :
    (list items).Finite ↔ ∀ item ∈ items, item.Finite := by
  constructor
  · rintro ⟨⟩
    assumption
  · exact .list

@[simp] theorem finite_object_iff {members : List (String × Json)} :
    (object members).Finite ↔ ∀ member ∈ members, member.2.Finite := by
  constructor
  · rintro ⟨⟩
    assumption
  · exact .object

@[simp] theorem finite_jsonNat (n : Nat) : (jsonNat n).Finite := .int n

@[simp] theorem finite_jsonTexts (texts : List String) : (jsonTexts texts).Finite := by
  simp [jsonTexts]

@[simp] theorem finite_jsonOptionalText (text : Option String) :
    (jsonOptionalText text).Finite := by
  cases text with
  | none => exact .null
  | some text => exact .text text

end Json

/-! ## The parts of the record -/

@[simp] theorem Overview.finite_record (o : Overview) : o.record.Finite := by
  simp [record]

@[simp] theorem Field.finite_record_iff (f : Field) : f.record.Finite ↔ f.default.Finite := by
  simp [record]

@[simp] theorem RelationshipSummary.finite_record (r : RelationshipSummary) :
    r.record.Finite := by
  simp [record]

@[simp] theorem EntityBreakdown.finite_record_iff (b : EntityBreakdown) :
    b.record.Finite ↔ ∀ f ∈ b.fields, f.default.Finite := by
  simp [record]

@[simp] theorem Role.finite_record (r : Role) : r.record.Finite := by
  simp [record]

@[simp] theorem CollectionAccess.finite_record (a : CollectionAccess) : a.record.Finite := by
  simp [record]

@[simp] theorem CapacityRow.finite_record (r : CapacityRow) : r.record.Finite := by
  have hdocs : ((r.estimate.freeTierDocs.map jsonNat).getD .null).Finite := by
    cases r.estimate.freeTierDocs with
    | none => exact .null
    | some docs => exact .int docs
  simp [record, hdocs]

/-- Every number in the defaults of a schema is finite. -/
def Schema.Finite (s : Schema) : Prop := ∀ e ∈ s.entities, ∀ f ∈ e.fields, f.default.Finite

theorem Schema.finite_record_iff (s : Schema) : s.report.record.Finite ↔ s.Finite := by
  simp [Report.record, report, Entity.breakdown, Schema.Finite]

/-- **When the record is JSON.** The text of the record is JSON exactly when every number in the
defaults of the schema is finite, however deep in a default it stands. The same holds of the file
to which the record is exported, which has one more line feed at its end. -/
theorem recordText_isText_iff (s : Schema) :
    (Json.IsText s.report.recordText ↔ s.Finite) ∧
      (Json.IsText (s.report.recordText ++ "\n") ↔ s.Finite) := by
  have hspace : Json.Grammar.IsSpace ['\n'] := by simp [Json.Grammar.IsSpace]
  constructor
  · rw [Report.recordText, Json.isText_pretty_iff, s.finite_record_iff]
  · rw [Json.IsText, Report.recordText, Json.pretty, String.toList_append, String.toList_ofList]
    exact (Json.isElement_prettyChars_iff s.report.record Json.isSpace_nil hspace).trans
      s.finite_record_iff

/-- A document with a default that is not a number, inside a list. -/
def numberlessDocument : Value :=
  .map [(.text "entities", .list [.map
    [(.text "name", .text "Note"), (.text "fields", .list [.map
      [(.text "name", .text "rank"), (.text "default", .list [.float .nan])]])]])]

/-- The document is a schema, and the record of its report is no JSON. -/
theorem numberless_record :
    ∃ s, Schema.ofValue numberlessDocument = .ok s ∧ ¬ Json.IsText s.report.recordText := by
  refine ⟨⟨[{ name := "Note", fields := [{ name := "rank", default := .list [.float .nan] }] }], []⟩,
    by rfl, fun h => ?_⟩
  rw [Report.recordText, Json.isText_pretty_iff, Schema.finite_record_iff] at h
  have hdefault := h _ List.mem_cons_self _ List.mem_cons_self
  rw [Json.finite_list_iff] at hdefault
  cases hdefault _ List.mem_cons_self

end DocSchema
