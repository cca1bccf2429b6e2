import DocSchema.Proofs.Except
import DocSchema.Schema.Outline
import Mathlib.Data.List.Basic

/-!
# A schema is read up to the first misfit

Reading a document stops at the first fault. Which fault that is can be said without the reading:
the outline of the document lists all places, and what is wrong at each of them by itself.

`Checks` says that a reading ends as a list of places tells: with the first of their faults, and
with a result if there is none. A step of a reading checks one place, and a chain of steps checks
the places of all its steps, one after the other. That the places behind a fault are listed, too,
makes no difference, as the first fault stays the first.

## Main definitions

* `Checks`: a reading fails with the first fault of some places, if they have any

## Main results

* `Checks.bind`: chains of steps
* `checks_ofValue`: a schema is read as the outline of its document tells
* `stops_at_first_misfit`: a document is refused for its first misfit
-/

namespace DocSchema

variable {α β : Type}

/-- The fault of a reading that fails. -/
def fault? : Except SchemaFault α → Option SchemaFault
  | .ok _ => none
  | .error fault => some fault

/-- A reading fails with the first fault of some places, and gives a result if they have none. -/
def Checks (reading : Except SchemaFault α) (places : List Place) : Prop :=
  fault? reading = (misfits places).head?

/-! ## Chains -/

theorem misfits_append (ps qs : List Place) : misfits (ps ++ qs) = misfits ps ++ misfits qs :=
  List.filterMap_append

theorem misfits_eq_nil_iff {ps : List Place} :
    misfits ps = [] ↔ ∀ p ∈ ps, p.demand.admits p.value = true := by
  simp [misfits, List.filterMap_eq_nil_iff, Place.fault?]

namespace Checks

theorem ok (a : α) : Checks (.ok a) [] := rfl

/-- A reading that gives a result and one that goes on behind it check their places one after the
other. -/
theorem bind {reading : Except SchemaFault α} {next : α → Except SchemaFault β}
    {ps qs : List Place} (h : Checks reading ps)
    (hnext : ∀ a, reading = .ok a → Checks (next a) qs) : Checks (reading >>= next) (ps ++ qs) := by
  unfold Checks at h hnext ⊢
  rw [misfits_append]
  cases reading with
  | ok a =>
    rw [List.head?_eq_none_iff.mp h.symm]
    exact hnext a rfl
  | error fault =>
    rw [List.head?_append, ← h]
    rfl

variable {location : String} {demand : Demand} {value : Value}

/-- A place at which nothing is wrong. -/
theorem cons (hp : demand.admits value = true) {reading : Except SchemaFault α} {ps : List Place}
    (h : Checks reading ps) : Checks reading (⟨location, demand, value⟩ :: ps) := by
  have hfault : Place.fault? ⟨location, demand, value⟩ = none := if_pos hp
  rw [Checks, misfits, List.filterMap_cons_none hfault]
  exact h

/-- A fault at the only place. -/
theorem error (hp : demand.admits value = false) :
    Checks (.error (Place.fault ⟨location, demand, value⟩) : Except SchemaFault α)
      [⟨location, demand, value⟩] := by
  simp [Checks, misfits, Place.fault?, hp, fault?]

theorem map {reading : Except SchemaFault α} {ps : List Place} (h : Checks reading ps)
    (f : α → β) : Checks (reading.map f) ps := by
  unfold Checks at h ⊢
  rw [← h]
  cases reading with
  | ok a => rfl
  | error fault => rfl

/-- The last step of a chain. -/
theorem bind_ok {reading : Except SchemaFault α} {ps : List Place} (h : Checks reading ps)
    (f : α → β) : Checks (reading >>= fun a => .ok (f a)) ps := h.map f

theorem eq_ok_iff {reading : Except SchemaFault α} {ps : List Place} (h : Checks reading ps) :
    (∃ a, reading = .ok a) ↔ misfits ps = [] := by
  rw [← List.head?_eq_none_iff, ← h]
  cases reading with
  | ok a => simp [fault?]
  | error fault => simp [fault?]

theorem eq_error_iff {reading : Except SchemaFault α} {ps : List Place} (h : Checks reading ps)
    (fault : SchemaFault) : reading = .error fault ↔ (misfits ps).head? = some fault := by
  rw [← h]
  cases reading with
  | ok a => simp [fault?]
  | error other => simp [fault?]

end Checks

/-! ## Single places -/

theorem checks_readMapping (location : String) (value : Value) :
    Checks (readMapping location value) [⟨location, .mapping, value⟩] := by
  cases value <;> rfl

theorem checks_readList (location : String) (value : Value) :
    Checks (readList location value) [⟨location, .list, value⟩] := by
  cases value <;> rfl

theorem checks_readText (location : String) (value : Value) :
    Checks (readText location value) (textPlaces location value) := by
  cases value <;> rfl

theorem checks_readOptionalText (location : String) (value : Value) :
    Checks (readOptionalText location value) [⟨location, .optionalText, value⟩] := by
  cases value <;> rfl

theorem checks_readFieldType (location : String) (value : Value) :
    Checks (readFieldType location value) [⟨location, .optionalText, value⟩] := by
  cases value <;> rfl

theorem checks_readBoolean (location : String) (value : Value) :
    Checks (readBoolean location value) [⟨location, .boolean, value⟩] := by
  cases value <;> rfl

theorem checks_readRoot (value : Value) :
    Checks (readRoot value) [⟨"", .document, value⟩] := by
  cases value <;> rfl

theorem ofTag?_eq_none {tag : String} (h : tag ∉ ["owner", "access_owner", "none"]) :
    Ownership.ofTag? tag = none := by
  simp only [List.mem_cons, List.not_mem_nil, or_false, not_or] at h
  simp [Ownership.ofTag?, Ownership.all, Ownership.tag, Ne.symm h.1, Ne.symm h.2.1, Ne.symm h.2.2]

theorem checks_readOwnership (location : String) (value : Value) :
    Checks (readOwnership location value) [⟨location, .ownership, value⟩] := by
  cases value with
  | text tag =>
    by_cases htag : tag ∈ ["owner", "access_owner", "none"]
    · simp only [List.mem_cons, List.not_mem_nil, or_false] at htag
      rcases htag with rfl | rfl | rfl <;> rfl
    · have hadmits : Demand.admits (.text tag) .ownership = false := decide_eq_false htag
      rw [readOwnership, ofTag?_eq_none htag]
      exact Checks.error hadmits
  | _ => rfl

theorem checks_readLink (location : String) (value : Value) :
    Checks (readLink location value) [⟨location, .link, value⟩] := by
  cases htruthy : value.isTruthy with
  | true =>
    -- where something is given, a link is a text like any other
    have hadmits : Demand.admits value .link = Demand.admits value .text := by
      simp [Demand.admits, htruthy]
    have htext := checks_readText location value
    rw [readLink, if_pos htruthy]
    simpa [Checks, misfits, textPlaces, Place.fault?, Place.fault, hadmits] using htext
  | false =>
    have hadmits : Demand.admits value .link = true := by simp [Demand.admits, htruthy]
    rw [readLink, htruthy]
    exact Checks.cons hadmits (.ok "")

theorem checks_readName (location : String) (node : Entries) :
    Checks (readName location node) (namePlaces location node) := by
  cases hname : Value.lookup "name" node with
  | none =>
    have hadmits : Demand.admits (.map node) .named = false := by
      simp [Demand.admits, Value.isNamed, hname]
    rw [readName, namePlaces, hname]
    exact Checks.error hadmits
  | some value =>
    have hadmits : Demand.admits (.map node) .named = true := by
      simp [Demand.admits, Value.isNamed, hname]
    rw [readName, namePlaces, hname]
    exact Checks.cons hadmits (checks_readText _ value)

/-! ## Lists -/

/-- The items that a list is read to are those that its outline follows. -/
theorem items_of_readList {location : String} {value : Value} {items : List Value}
    (h : readList location value = .ok items) : value.items?.getD [] = items := by
  cases value with
  | null | list _ | tuple _ | bytes _ =>
    cases h
    rfl
  | _ => cases h

section Items

variable {read : String → Value → Except SchemaFault α} {places : String → Value → List Place}
  (h : ∀ location value, Checks (read location value) (places location value))

include h

theorem checks_readEach (location : String) (position : Nat) (values : List Value) :
    Checks (readEach read location position values)
      ((values.zipIdx position).flatMap fun (value, position) =>
        places (itemLocation location position) value) := by
  induction values generalizing position with
  | nil => exact .ok []
  | cons value values ih =>
    rw [List.zipIdx_cons, List.flatMap_cons]
    exact (h _ _).bind fun first _ => (ih (position + 1)).bind_ok (first :: ·)

theorem checks_itemPlaces {location location' : String} {value : Value} {items : List Value}
    (hitems : readList location' value = .ok items) :
    Checks (readEach read location 0 items) (itemPlaces places location value) := by
  rw [itemPlaces, items_of_readList hitems]
  exact checks_readEach h location 0 items

theorem checks_readItems (location : String) (value : Value) :
    Checks (readItems read location value) (listPlaces places location value) :=
  (checks_readList location value).bind fun _ hitems => checks_itemPlaces h hitems

end Items

/-! ## Defaults -/

namespace Json

mutual

theorem checks_ofValue : ∀ (location : String) (value : Value),
    Checks (ofValue location value) (places location value)
  | _, .null | _, .bool _ | _, .int _ | _, .float _ | _, .text _ | _, .date _ | _, .datetime _
  | _, .bytes _ | _, .set _ => rfl
  | location, .list items => .cons rfl ((checks_ofItems location 0 items).map list)
  | location, .tuple items => .cons rfl ((checks_ofItems location 0 items).map list)
  | location, .map entries => .cons rfl ((checks_ofEntries location entries).map _)

theorem checks_ofItems : ∀ (location : String) (position : Nat) (values : List Value),
    Checks (ofItems location position values) (placesOfItems location position values)
  | _, _, [] => .ok []
  | location, position, value :: values =>
    (checks_ofValue (itemLocation location position) value).bind fun first _ =>
      (checks_ofItems location (position + 1) values).bind_ok (first :: ·)

theorem checks_ofEntries : ∀ (location : String) (entries : List (Value × Value)),
    Checks (ofEntries location entries) (placesOfEntries location entries)
  | _, [] => .ok []
  | location, (key, value) :: entries =>
    (checks_ofValue (memberLocation location key.display) value).bind fun first _ =>
      (checks_ofEntries location entries).bind_ok ((key.display, first) :: ·)

end

mutual

/-- All places of a default ask for JSON. -/
theorem demand_of_mem_places : ∀ (location : String) (value : Value),
    ∀ p ∈ places location value, p.demand = .json
  | _, .null | _, .bool _ | _, .int _ | _, .float _ | _, .text _ | _, .date _ | _, .datetime _
  | _, .bytes _ | _, .set _ => List.forall_mem_singleton.mpr rfl
  | location, .list items =>
    List.forall_mem_cons.mpr ⟨rfl, demand_of_mem_placesOfItems location 0 items⟩
  | location, .tuple items =>
    List.forall_mem_cons.mpr ⟨rfl, demand_of_mem_placesOfItems location 0 items⟩
  | location, .map entries =>
    List.forall_mem_cons.mpr ⟨rfl, demand_of_mem_placesOfEntries location entries⟩

theorem demand_of_mem_placesOfItems : ∀ (location : String) (position : Nat)
    (values : List Value), ∀ p ∈ placesOfItems location position values, p.demand = .json
  | _, _, [] => by simp [placesOfItems]
  | location, position, value :: values =>
    List.forall_mem_append.mpr ⟨demand_of_mem_places (itemLocation location position) value,
      demand_of_mem_placesOfItems location (position + 1) values⟩

theorem demand_of_mem_placesOfEntries : ∀ (location : String) (entries : List (Value × Value)),
    ∀ p ∈ placesOfEntries location entries, p.demand = .json
  | _, [] => by simp [placesOfEntries]
  | location, (key, value) :: entries =>
    List.forall_mem_append.mpr ⟨demand_of_mem_places (memberLocation location key.display) value,
      demand_of_mem_placesOfEntries location entries⟩

end

end Json

/-! ## Parts of a schema -/

theorem eq_map_of_readMapping {location : String} {value : Value} {node : Entries}
    (h : readMapping location value = .ok node) : value = .map node := by
  cases value with
  | map entries =>
    cases h
    rfl
  | _ => cases h

/-- A mapping and its parts. -/
theorem checks_mapping {read : Entries → Except SchemaFault α} {places : Entries → List Place}
    (h : ∀ node, Checks (read node) (places node)) (location : String) (value : Value) :
    Checks (readMapping location value >>= read) (mappingPlaces places location value) := by
  show Checks _ ([⟨location, .mapping, value⟩] ++ (value.entries?.map places).getD [])
  refine (checks_readMapping location value).bind fun node hnode => ?_
  rw [eq_map_of_readMapping hnode]
  exact h node

theorem Field.checks_ofValue (location : String) (value : Value) :
    Checks (ofValue location value) (places location value) := by
  refine checks_mapping (fun node => ?_) location value
  simp only [List.append_assoc]
  refine (checks_readName location node).bind fun name _ => ?_
  refine (checks_readFieldType _ _).bind fun type _ => ?_
  refine (checks_readBoolean _ _).bind fun required _ => ?_
  refine (Json.checks_ofValue _ _).bind fun default _ => ?_
  exact (checks_readOwnership _ _).bind_ok _

theorem Relationship.checks_ofValue (location : String) (value : Value) :
    Checks (ofValue location value) (places location value) := by
  refine checks_mapping (fun node => ?_) location value
  refine (checks_readText _ _).bind fun type _ => ?_
  refine (checks_readLink _ _).bind fun targetEntity _ => ?_
  exact (checks_readLink _ _).bind_ok _

theorem Entity.checks_ofValue (location : String) (value : Value) :
    Checks (ofValue location value) (places location value) := by
  refine checks_mapping (fun node => ?_) location value
  simp only [List.append_assoc]
  refine (checks_readName location node).bind fun name _ => ?_
  refine (checks_readOptionalText _ _).bind fun collectionName _ => ?_
  refine (checks_readItems Field.checks_ofValue _ _).bind fun fields _ => ?_
  refine (checks_readItems Relationship.checks_ofValue _ _).bind fun relationships _ => ?_
  exact (checks_readItems (checks_readItems checks_readText) _ _).bind_ok _

theorem Role.checks_ofValue (location : String) (value : Value) :
    Checks (ofValue location value) (places location value) := by
  refine checks_mapping (fun node => ?_) location value
  simp only [List.append_assoc]
  refine (checks_readList _ _).bind fun items hitems => ?_
  refine (checks_readText _ _).bind fun role _ => ?_
  refine (checks_itemPlaces checks_readText hitems).bind fun permissions _ => ?_
  exact (checks_readOptionalText _ _).bind_ok _

/-- A schema is read as the outline of its document tells. -/
theorem Schema.checks_ofValue (value : Value) : Checks (ofValue value) (outline value) := by
  show Checks _ ([⟨"", .document, value⟩] ++ (value.entries?.map outline.rootPlaces).getD [])
  refine (checks_readRoot value).bind fun root hroot => ?_
  cases value with
  | null =>
    cases hroot
    rfl
  | map entries =>
    cases hroot
    show Checks _ (outline.rootPlaces root)
    simp only [outline.rootPlaces, List.append_assoc]
    refine (checks_readList _ _).bind fun entityItems hentities => ?_
    refine (checks_readList _ _).bind fun roleItems hroles => ?_
    refine (checks_itemPlaces Entity.checks_ofValue hentities).bind fun entities _ => ?_
    exact (checks_itemPlaces Role.checks_ofValue hroles).bind_ok _
  | _ => cases hroot

/-- **A document is refused for its first misfit.** A document is read as a schema exactly when
nothing is wrong at any place of its outline. Otherwise the reading fails with the first fault of
the outline, whatever else is wrong behind it. -/
theorem stops_at_first_misfit (value : Value) :
    ((∃ s, Schema.ofValue value = .ok s) ↔ misfits (outline value) = []) ∧
      ∀ fault, Schema.ofValue value = .error fault ↔ (misfits (outline value)).head? = some fault :=
  have hchecks := Schema.checks_ofValue value
  ⟨hchecks.eq_ok_iff, hchecks.eq_error_iff⟩

-- The list of roles counts before the items of the list of entities.
example :
    misfits (outline (.map [(.text "entities", .list [.map [], .int 1]), (.text "roles", .int 2)])) =
      [.unexpected "roles" .list, .nameless "entities[0]", .unexpected "entities[1]" .mapping] := by
  rfl

end DocSchema
