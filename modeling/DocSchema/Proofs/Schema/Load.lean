import DocSchema.Proofs.Except
import DocSchema.Schema.Load
import Mathlib.Data.List.Forall2

/-!
# Where the parts of a schema come from

A schema that is read from a document is made of parts, each of which was read from a value of the
document. This module follows the parts down: from the schema to its entities, from these to their
fields, and from a field to its default.

## Main results

* `forall₂_of_readEach`: the items of a list are read one by one
* `Schema.exists_default_of_ofValue`: every default was read from a value
-/

namespace DocSchema

variable {α : Type} {read : String → Value → Except SchemaFault α}

/-- The items of a list are read one by one. -/
theorem forall₂_of_readEach {location : String} {position : Nat} {values : List Value}
    {as : List α} (h : readEach read location position values = .ok as) :
    List.Forall₂ (fun value a => ∃ place, read place value = .ok a) values as := by
  induction values generalizing position as with
  | nil =>
    cases h
    exact .nil
  | cons value values ih =>
    obtain ⟨first, hfirst, h⟩ := Except.bind_eq_ok_iff.mp h
    obtain ⟨rest, hrest, h⟩ := Except.bind_eq_ok_iff.mp h
    cases h
    exact .cons ⟨_, hfirst⟩ (ih hrest)

theorem exists_of_mem_readEach {location : String} {position : Nat} {values : List Value}
    {as : List α} (h : readEach read location position values = .ok as) {a : α} (ha : a ∈ as) :
    ∃ place value, read place value = .ok a := by
  have hall := forall₂_of_readEach h
  clear h
  induction hall with
  | nil => cases ha
  | cons hfirst _ ih =>
    rcases List.mem_cons.mp ha with rfl | ha
    · obtain ⟨place, hfirst⟩ := hfirst
      exact ⟨place, _, hfirst⟩
    · exact ih ha

theorem exists_of_mem_readItems {location : String} {value : Value} {as : List α}
    (h : readItems read location value = .ok as) {a : α} (ha : a ∈ as) :
    ∃ place value, read place value = .ok a := by
  obtain ⟨items, -, h⟩ := Except.bind_eq_ok_iff.mp h
  exact exists_of_mem_readEach h ha

/-! ## From the schema to its defaults -/

theorem Field.exists_default_of_ofValue {location : String} {value : Value} {f : Field}
    (h : Field.ofValue location value = .ok f) :
    ∃ place value, Json.ofValue place value = .ok f.default := by
  obtain ⟨node, -, h⟩ := Except.bind_eq_ok_iff.mp h
  obtain ⟨name, -, h⟩ := Except.bind_eq_ok_iff.mp h
  obtain ⟨type, -, h⟩ := Except.bind_eq_ok_iff.mp h
  obtain ⟨required, -, h⟩ := Except.bind_eq_ok_iff.mp h
  obtain ⟨default, hdefault, h⟩ := Except.bind_eq_ok_iff.mp h
  obtain ⟨ownership, -, h⟩ := Except.bind_eq_ok_iff.mp h
  cases h
  exact ⟨_, _, hdefault⟩

theorem Entity.exists_field_of_ofValue {location : String} {value : Value} {e : Entity}
    (h : Entity.ofValue location value = .ok e) {f : Field} (hf : f ∈ e.fields) :
    ∃ place value, Field.ofValue place value = .ok f := by
  obtain ⟨node, -, h⟩ := Except.bind_eq_ok_iff.mp h
  obtain ⟨name, -, h⟩ := Except.bind_eq_ok_iff.mp h
  obtain ⟨collectionName, -, h⟩ := Except.bind_eq_ok_iff.mp h
  obtain ⟨fields, hfields, h⟩ := Except.bind_eq_ok_iff.mp h
  obtain ⟨relationships, -, h⟩ := Except.bind_eq_ok_iff.mp h
  obtain ⟨indexSpecs, -, h⟩ := Except.bind_eq_ok_iff.mp h
  cases h
  exact exists_of_mem_readItems hfields hf

theorem Schema.exists_entity_of_ofValue {value : Value} {s : Schema}
    (h : Schema.ofValue value = .ok s) {e : Entity} (he : e ∈ s.entities) :
    ∃ place value, Entity.ofValue place value = .ok e := by
  obtain ⟨root, -, h⟩ := Except.bind_eq_ok_iff.mp h
  obtain ⟨entityItems, -, h⟩ := Except.bind_eq_ok_iff.mp h
  obtain ⟨roleItems, -, h⟩ := Except.bind_eq_ok_iff.mp h
  obtain ⟨entities, hentities, h⟩ := Except.bind_eq_ok_iff.mp h
  obtain ⟨roles, -, h⟩ := Except.bind_eq_ok_iff.mp h
  cases h
  exact exists_of_mem_readEach hentities he

/-- Every default in a schema was read from a value of the document. -/
theorem Schema.exists_default_of_ofValue {value : Value} {s : Schema}
    (h : Schema.ofValue value = .ok s) {e : Entity} (he : e ∈ s.entities) {f : Field}
    (hf : f ∈ e.fields) : ∃ place value, Json.ofValue place value = .ok f.default := by
  obtain ⟨_, _, he⟩ := exists_entity_of_ofValue h he
  obtain ⟨_, _, hf⟩ := Entity.exists_field_of_ofValue he hf
  exact Field.exists_default_of_ofValue hf

end DocSchema
