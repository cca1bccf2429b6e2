import DocSchema.Proofs.Config.Inline
import DocSchema.Proofs.Json.Unambiguous
import DocSchema.Proofs.Schema.Defaults
import DocSchema.Proofs.Schema.Load

/-!
# Numbers in the defaults of a schema

The floating point numbers of a document are in lowest form. Nothing computes with them on their way
into a schema, so the numbers in its defaults are in lowest form too. This module follows them from
the document to its parts, and from there to the defaults.

## Main results

* `Value.HasNormalForm.inLowestForm`: the normal form of a value has no other numbers
* `Schema.inLowestForm_of_ofValue`: the numbers of defaults are in lowest form
-/

namespace DocSchema

open Value (lookup)

variable {value : Value} {location : String} {entries : Entries} {items : List Value}

/-! ## Parts of a document -/

theorem Value.Proper.of_items (h : value.Proper) (hitems : value.items? = some items) :
    ∀ v ∈ items, v.Proper := by
  cases h with
  | list hall | tuple hall =>
    cases hitems
    exact hall
  | bytes content =>
    cases hitems
    exact List.forall_mem_map.mpr fun b _ => .int _
  | _ => cases hitems

theorem Entries.proper_get (h : (Value.map entries).Proper) (key : String) :
    (entries.get key).Proper := by
  rw [Entries.get]
  cases hvalue : lookup key entries with
  | none => exact .null
  | some v => exact h.of_lookup hvalue

theorem Entries.proper_firstPresent (h : (Value.map entries).Proper) (key otherKey : String) :
    (entries.firstPresent key otherKey).Proper := by
  rw [Entries.firstPresent]
  split
  · exact proper_get h otherKey
  · exact proper_get h key

theorem proper_of_readMapping (h : value.Proper) (hread : readMapping location value = .ok entries) :
    (Value.map entries).Proper := by
  cases value with
  | map all =>
    cases hread
    exact h
  | _ => cases hread

theorem proper_of_readRoot (h : value.Proper) (hread : readRoot value = .ok entries) :
    (Value.map entries).Proper := by
  cases value with
  | null =>
    cases hread
    exact .map .nil nofun nofun
  | map all =>
    cases hread
    exact h
  | _ => cases hread

theorem proper_of_readList (h : value.Proper) (hread : readList location value = .ok items) :
    ∀ v ∈ items, v.Proper := by
  rw [readList.eq_def] at hread
  split at hread
  · cases hread
    exact nofun
  · split at hread
    · next hitems =>
      cases hread
      exact h.of_items hitems
    · cases hread

/-- What each item of a list is read to has a property, if what is read of a part of a document has
it. -/
theorem forall_of_readEach {α : Type} {read : String → Value → Except SchemaFault α} {P : α → Prop}
    (hpart : ∀ {place v a}, v.Proper → read place v = .ok a → P a) {position : Nat} {as : List α}
    (hitems : ∀ v ∈ items, v.Proper) (hread : readEach read location position items = .ok as) :
    ∀ a ∈ as, P a := by
  have hall := forall₂_of_readEach hread
  clear hread
  induction hall with
  | nil => exact List.forall_mem_nil P
  | cons hfirst _ ih =>
    obtain ⟨place, hfirst⟩ := hfirst
    rw [List.forall_mem_cons] at hitems ⊢
    exact ⟨hpart hitems.1 hfirst, ih hitems.2⟩

/-! ## Defaults -/

/-- The normal form of a value has no numbers but those of the value. -/
theorem Value.HasNormalForm.inLowestForm {j : Json} (h : value.HasNormalForm j)
    (hproper : value.Proper) : j.InLowestForm := by
  have hlist {items : List Value} {js : List Json} (hlength : items.length = js.length)
      (hitems : ∀ v ∈ items, v.Proper)
      (ih : ∀ v j, (v, j) ∈ items.zip js → v.Proper → j.InLowestForm) :
      ∀ j ∈ js, j.InLowestForm := by
    intro j hj
    rw [← List.map_snd_zip (Nat.le_of_eq hlength.symm)] at hj
    obtain ⟨⟨v, j⟩, hmem, rfl⟩ := List.mem_map.mp hj
    exact ih v j hmem (hitems v (List.of_mem_zip hmem).1)
  induction h with
  | null => exact .null
  | bool b => exact .bool b
  | int n => exact .int n
  | float x =>
    cases hproper with
    | float hx => exact .float hx
  | text s => exact .text s
  | date d => exact .text d.iso
  | datetime t => exact .text t.iso
  | list hlength _ ih =>
    cases hproper with
    | list hitems => exact .list (hlist hlength hitems ih)
  | tuple hlength _ ih =>
    cases hproper with
    | tuple hitems => exact .list (hlist hlength hitems ih)
  | map hkeys _ ih =>
    cases hproper with
    | map _ _ hvalues =>
      refine .object fun ⟨key, j⟩ hmem => ?_
      have hkey := List.mem_map_of_mem (f := Prod.fst) hmem
      rw [hkeys, List.mem_eraseDups] at hkey
      obtain ⟨v, hlast⟩ := exists_lastUnder hkey
      obtain ⟨before, k, after, rfl, -, -⟩ := id hlast
      exact ih key j v hmem hlast
        (hvalues (k, v) (List.mem_append_right _ List.mem_cons_self))

theorem Field.inLowestForm_of_ofValue {f : Field} (h : value.Proper)
    (hread : Field.ofValue location value = .ok f) : f.default.InLowestForm := by
  obtain ⟨node, hnode, hread⟩ := Except.bind_eq_ok_iff.mp hread
  obtain ⟨name, -, hread⟩ := Except.bind_eq_ok_iff.mp hread
  obtain ⟨type, -, hread⟩ := Except.bind_eq_ok_iff.mp hread
  obtain ⟨required, -, hread⟩ := Except.bind_eq_ok_iff.mp hread
  obtain ⟨default, hdefault, hread⟩ := Except.bind_eq_ok_iff.mp hread
  obtain ⟨ownership, -, hread⟩ := Except.bind_eq_ok_iff.mp hread
  cases hread
  exact (Json.hasNormalForm_of_ofValue _ _ hdefault).inLowestForm
    (Entries.proper_get (proper_of_readMapping h hnode) "default")

theorem Entity.inLowestForm_of_ofValue {e : Entity} (h : value.Proper)
    (hread : Entity.ofValue location value = .ok e) : ∀ f ∈ e.fields, f.default.InLowestForm := by
  obtain ⟨node, hnode, hread⟩ := Except.bind_eq_ok_iff.mp hread
  obtain ⟨name, -, hread⟩ := Except.bind_eq_ok_iff.mp hread
  obtain ⟨collectionName, -, hread⟩ := Except.bind_eq_ok_iff.mp hread
  obtain ⟨fields, hfields, hread⟩ := Except.bind_eq_ok_iff.mp hread
  obtain ⟨relationships, -, hread⟩ := Except.bind_eq_ok_iff.mp hread
  obtain ⟨indexSpecs, -, hread⟩ := Except.bind_eq_ok_iff.mp hread
  cases hread
  obtain ⟨items, hitems, hfields⟩ := Except.bind_eq_ok_iff.mp hfields
  exact forall_of_readEach Field.inLowestForm_of_ofValue
    (proper_of_readList (Entries.proper_get (proper_of_readMapping h hnode) "fields") hitems) hfields

/-- The numbers in the defaults of a schema are in lowest form. -/
theorem Schema.inLowestForm_of_ofValue {s : Schema} (h : value.Proper)
    (hread : Schema.ofValue value = .ok s) :
    ∀ e ∈ s.entities, ∀ f ∈ e.fields, f.default.InLowestForm := by
  obtain ⟨root, hroot, hread⟩ := Except.bind_eq_ok_iff.mp hread
  obtain ⟨entityItems, hitems, hread⟩ := Except.bind_eq_ok_iff.mp hread
  obtain ⟨roleItems, -, hread⟩ := Except.bind_eq_ok_iff.mp hread
  obtain ⟨entities, hentities, hread⟩ := Except.bind_eq_ok_iff.mp hread
  obtain ⟨roles, -, hread⟩ := Except.bind_eq_ok_iff.mp hread
  cases hread
  exact forall_of_readEach Entity.inLowestForm_of_ofValue (proper_of_readList
    (Entries.proper_firstPresent (proper_of_readRoot h hroot) "entities" "dataModels") hitems)
    hentities

end DocSchema
