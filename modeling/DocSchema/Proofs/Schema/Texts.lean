import DocSchema.Proofs.Schema.Outline
import Mathlib.Data.List.Forall2

/-!
# What becomes of texts and lists

A text of a schema may be a number in the document, and is stored as it is spelled there. A list
may be a tuple. One would expect this of all texts and all lists alike, and it is nearly so.

`Stores` is what the reading does to the text at a place. It is followed through the parts of a
document in the order of the outline, as the texts of a schema have the order of their places. It
differs from the rule `KeepsText` only at links, where zero, false and whatever is empty end up as
the empty text. Lists differ from their rule, `HoldsList`, only by bytes, which pass for a list of
integers.

## Main definitions

* `Schema.texts`: the texts of a schema, in the order of their places
* `Uniform`: all texts and all lists of a document follow one rule each

## Main results

* `Schema.stored_of_ofValue`: what is stored of the texts of a document
* `uniform_iff`: the two exceptions are all there are
-/

namespace DocSchema

/-! ## Texts of a schema -/

/-- The texts of a field, in the order of their places. -/
def Field.texts (f : Field) : List (Option String) := [some f.name, some f.type]

/-- The texts of a relationship. -/
def Relationship.texts (r : Relationship) : List (Option String) :=
  [some r.type, some r.targetEntity, some r.viaField]

/-- The texts of an entity. -/
def Entity.texts (e : Entity) : List (Option String) :=
  [some e.name, e.collectionName] ++ e.fields.flatMap Field.texts ++
    e.relationships.flatMap Relationship.texts ++ e.indexSpecs.flatMap (List.map some)

/-- The texts of a role. -/
def Role.texts (r : Role) : List (Option String) :=
  [some r.role] ++ r.permissions.map some ++ [r.description]

/-- The texts of a schema. -/
def Schema.texts (s : Schema) : List (Option String) :=
  s.entities.flatMap Entity.texts ++ s.roles.flatMap Role.texts

/-! ## Rules -/

namespace Place

/-- Whether a text is stored of what is at a place. -/
def takesText (p : Place) : Bool :=
  p.demand == .text || p.demand == .optionalText || p.demand == .link

/-- There is nothing, or a text or number whose spelling is stored. -/
def KeepsText (p : Place) (stored : Option String) : Prop :=
  p.value = .null ∨ p.value.isTextual = true ∧ stored = some p.value.display

/-- There is nothing, or a list or tuple. -/
def HoldsList (p : Place) : Prop :=
  p.value = .null ∨ (∃ items, p.value = .list items) ∨ ∃ items, p.value = .tuple items

/-- What is stored of the texts of a document: a link that is empty, zero or false becomes the
empty text, and all else follows the rule. -/
def Stores (p : Place) (stored : Option String) : Prop :=
  if p.demand = .link ∧ p.value.isTruthy = false then stored = some "" else p.KeepsText stored

end Place

/-- All texts and all lists of a document follow one rule each. -/
structure Uniform (value : Value) (s : Schema) : Prop where
  texts : List.Forall₂ Place.KeepsText ((outline value).filter Place.takesText) s.texts
  lists : ∀ p ∈ outline value, p.demand = .list → p.HoldsList

/-! ## Texts and their places -/

/-- Some places have some texts stored. -/
def Stored (places : List Place) (texts : List (Option String)) : Prop :=
  List.Forall₂ Place.Stores (places.filter Place.takesText) texts

namespace Stored

theorem append {ps qs : List Place} {ts us : List (Option String)} (h : Stored ps ts)
    (h' : Stored qs us) : Stored (ps ++ qs) (ts ++ us) := by
  rw [Stored, List.filter_append]
  exact List.rel_append h h'

/-- Places of which no text is stored. -/
theorem none {ps : List Place} (h : ∀ p ∈ ps, p.takesText = false) : Stored ps [] := by
  have hnone : ps.filter Place.takesText = [] := by
    rw [List.filter_eq_nil_iff]
    intro p hp
    rw [h p hp]
    decide
  rw [Stored, hnone]
  exact .nil

theorem single {p : Place} {stored : Option String} (hp : p.takesText = true)
    (h : p.Stores stored) : Stored [p] [stored] := by
  rw [Stored, List.filter_cons_of_pos hp]
  exact .cons h .nil

end Stored

theorem keepsText_of_readText {location place : String} {demand : Demand} {value : Value}
    {t : String} (h : readText location value = .ok t) :
    Place.KeepsText ⟨place, demand, value⟩ (some t) := by
  cases value with
  | text | int | float =>
    cases h
    exact .inr ⟨rfl, rfl⟩
  | _ => cases h

theorem stored_of_readText {location : String} {value : Value} {t : String}
    (h : readText location value = .ok t) : Stored (textPlaces location value) [some t] :=
  .single rfl (keepsText_of_readText h)

theorem stored_of_readOptionalText {location : String} {value : Value} {t : Option String}
    (h : readOptionalText location value = .ok t) :
    Stored [⟨location, .optionalText, value⟩] [t] := by
  refine .single rfl ?_
  cases value with
  | null => exact .inl rfl
  | text | int | float =>
    cases h
    exact .inr ⟨rfl, rfl⟩
  | _ => cases h

theorem stored_of_readFieldType {location : String} {value : Value} {t : String}
    (h : readFieldType location value = .ok t) :
    Stored [⟨location, .optionalText, value⟩] [some t] := by
  refine .single rfl ?_
  cases value with
  | null => exact .inl rfl
  | text | int | float =>
    cases h
    exact .inr ⟨rfl, rfl⟩
  | _ => cases h

theorem stored_of_readLink {location : String} {value : Value} {t : String}
    (h : readLink location value = .ok t) : Stored [⟨location, .link, value⟩] [some t] := by
  refine .single rfl ?_
  cases htruthy : value.isTruthy with
  | true =>
    rw [readLink, if_pos htruthy] at h
    rw [Place.Stores, if_neg (by simp [htruthy])]
    exact keepsText_of_readText h
  | false =>
    rw [readLink, htruthy] at h
    cases h
    rw [Place.Stores, if_pos ⟨rfl, htruthy⟩]

theorem stored_of_readName {location : String} {node : Entries} {t : String}
    (h : readName location node = .ok t) : Stored (namePlaces location node) [some t] := by
  rw [readName] at h
  rw [namePlaces]
  cases hname : Value.lookup "name" node with
  | none =>
    rw [hname] at h
    cases h
  | some value =>
    rw [hname] at h
    exact stored_of_readText h

/-! ## Lists of parts -/

section Items

variable {α : Type} {read : String → Value → Except SchemaFault α}
  {places : String → Value → List Place} {texts : α → List (Option String)}
  (hread : ∀ {location value a}, read location value = .ok a →
    Stored (places location value) (texts a))
  {location : String} {as : List α}

include hread

theorem stored_of_readEach {position : Nat} {values : List Value}
    (h : readEach read location position values = .ok as) :
    Stored ((values.zipIdx position).flatMap fun (value, position) =>
      places (itemLocation location position) value) (as.flatMap texts) := by
  induction values generalizing position as with
  | nil =>
    cases h
    exact .nil
  | cons value values ih =>
    obtain ⟨first, hfirst, h⟩ := Except.bind_eq_ok_iff.mp h
    obtain ⟨rest, hrest, h⟩ := Except.bind_eq_ok_iff.mp h
    cases h
    rw [List.zipIdx_cons, List.flatMap_cons, List.flatMap_cons]
    exact (hread hfirst).append (ih hrest)

theorem stored_of_itemPlaces {place : String} {value : Value} {items : List Value}
    (hitems : readList place value = .ok items) (h : readEach read location 0 items = .ok as) :
    Stored (itemPlaces places location value) (as.flatMap texts) := by
  rw [itemPlaces, items_of_readList hitems]
  exact stored_of_readEach hread h

theorem stored_of_readItems {value : Value} (h : readItems read location value = .ok as) :
    Stored (listPlaces places location value) (as.flatMap texts) := by
  obtain ⟨items, hitems, h⟩ := Except.bind_eq_ok_iff.mp h
  exact stored_of_itemPlaces hread hitems h

end Items

/-- The items of a list of texts. -/
theorem stored_of_textItems {location place : String} {value : Value} {items : List Value}
    {ts : List String} (hitems : readList place value = .ok items)
    (h : readEach readText location 0 items = .ok ts) :
    Stored (itemPlaces textPlaces location value) (ts.map some) := by
  rw [List.map_eq_flatMap]
  exact stored_of_itemPlaces stored_of_readText hitems h

theorem stored_of_readTexts {location : String} {value : Value} {ts : List String}
    (h : readItems readText location value = .ok ts) :
    Stored (listPlaces textPlaces location value) (ts.map some) := by
  obtain ⟨items, hitems, h⟩ := Except.bind_eq_ok_iff.mp h
  exact stored_of_textItems hitems h

/-! ## Parts of a schema -/

/-- Nothing in a default is stored as a text of the schema. -/
theorem Json.takesText_of_mem_places {location : String} {value : Value} {p : Place}
    (h : p ∈ Json.places location value) : p.takesText = false := by
  rw [Place.takesText, Json.demand_of_mem_places location value p h]
  rfl

theorem Field.stored_of_ofValue {location : String} {value : Value} {f : Field}
    (h : ofValue location value = .ok f) : Stored (places location value) f.texts := by
  obtain ⟨node, hnode, h⟩ := Except.bind_eq_ok_iff.mp h
  obtain ⟨name, hname, h⟩ := Except.bind_eq_ok_iff.mp h
  obtain ⟨type, htype, h⟩ := Except.bind_eq_ok_iff.mp h
  obtain ⟨required, -, h⟩ := Except.bind_eq_ok_iff.mp h
  obtain ⟨default, -, h⟩ := Except.bind_eq_ok_iff.mp h
  obtain ⟨ownership, -, h⟩ := Except.bind_eq_ok_iff.mp h
  cases h
  rw [eq_map_of_readMapping hnode]
  have htype : Stored [⟨memberLocation location "type", .optionalText, node.get "type"⟩,
      ⟨memberLocation location "required", .boolean, node.get "required"⟩] [some type] :=
    stored_of_readFieldType htype
  have hdefault : Stored (Json.places (memberLocation location "default") (node.get "default")) [] :=
    .none fun _ => Json.takesText_of_mem_places
  have hownership : Stored
      [⟨memberLocation location "ownership", .ownership, node.get "ownership"⟩] [] := .nil
  exact (((stored_of_readName hname).append htype).append hdefault).append hownership

theorem Relationship.stored_of_ofValue {location : String} {value : Value} {r : Relationship}
    (h : ofValue location value = .ok r) : Stored (places location value) r.texts := by
  obtain ⟨node, hnode, h⟩ := Except.bind_eq_ok_iff.mp h
  obtain ⟨type, htype, h⟩ := Except.bind_eq_ok_iff.mp h
  obtain ⟨targetEntity, htargetEntity, h⟩ := Except.bind_eq_ok_iff.mp h
  obtain ⟨viaField, hviaField, h⟩ := Except.bind_eq_ok_iff.mp h
  cases h
  rw [eq_map_of_readMapping hnode]
  exact ((stored_of_readText htype).append (stored_of_readLink htargetEntity)).append
    (stored_of_readLink hviaField)

theorem Entity.stored_of_ofValue {location : String} {value : Value} {e : Entity}
    (h : ofValue location value = .ok e) : Stored (places location value) e.texts := by
  obtain ⟨node, hnode, h⟩ := Except.bind_eq_ok_iff.mp h
  obtain ⟨name, hname, h⟩ := Except.bind_eq_ok_iff.mp h
  obtain ⟨collectionName, hcollectionName, h⟩ := Except.bind_eq_ok_iff.mp h
  obtain ⟨fields, hfields, h⟩ := Except.bind_eq_ok_iff.mp h
  obtain ⟨relationships, hrelationships, h⟩ := Except.bind_eq_ok_iff.mp h
  obtain ⟨indexSpecs, hindexSpecs, h⟩ := Except.bind_eq_ok_iff.mp h
  cases h
  rw [eq_map_of_readMapping hnode]
  have hnames := (stored_of_readName hname).append (stored_of_readOptionalText hcollectionName)
  have hspecs := stored_of_readItems stored_of_readTexts hindexSpecs
  exact ((hnames.append (stored_of_readItems Field.stored_of_ofValue hfields)).append
    (stored_of_readItems Relationship.stored_of_ofValue hrelationships)).append hspecs

theorem Role.stored_of_ofValue {location : String} {value : Value} {r : Role}
    (h : ofValue location value = .ok r) : Stored (places location value) r.texts := by
  obtain ⟨node, hnode, h⟩ := Except.bind_eq_ok_iff.mp h
  obtain ⟨items, hitems, h⟩ := Except.bind_eq_ok_iff.mp h
  obtain ⟨role, hrole, h⟩ := Except.bind_eq_ok_iff.mp h
  obtain ⟨permissions, hpermissions, h⟩ := Except.bind_eq_ok_iff.mp h
  obtain ⟨description, hdescription, h⟩ := Except.bind_eq_ok_iff.mp h
  cases h
  rw [eq_map_of_readMapping hnode]
  exact ((stored_of_readText hrole).append (stored_of_textItems hitems hpermissions)).append
    (stored_of_readOptionalText hdescription)

/-- What is stored of the texts of a document that is read as a schema. -/
theorem Schema.stored_of_ofValue {value : Value} {s : Schema} (h : ofValue value = .ok s) :
    Stored (outline value) s.texts := by
  obtain ⟨root, hroot, h⟩ := Except.bind_eq_ok_iff.mp h
  obtain ⟨entityItems, hentityItems, h⟩ := Except.bind_eq_ok_iff.mp h
  obtain ⟨roleItems, hroleItems, h⟩ := Except.bind_eq_ok_iff.mp h
  obtain ⟨entities, hentities, h⟩ := Except.bind_eq_ok_iff.mp h
  obtain ⟨roles, hroles, h⟩ := Except.bind_eq_ok_iff.mp h
  cases h
  cases value with
  | null =>
    cases hroot
    cases hentityItems
    cases hroleItems
    cases hentities
    cases hroles
    exact .nil
  | map entries =>
    cases hroot
    exact (stored_of_itemPlaces Entity.stored_of_ofValue hentityItems hentities).append
      (stored_of_itemPlaces Role.stored_of_ofValue hroleItems hroles)
  | _ => cases hroot

/-! ## Where the rules end -/

namespace Place

/-- A link that is zero, false or empty, and neither nothing nor a text. -/
def dropsLink (p : Place) : Bool :=
  p.demand == .link && !p.value.isTruthy && !p.value.isNull && !p.value.isText

/-- Bytes where a list belongs. -/
def listsBytes (p : Place) : Bool := p.demand == .list && p.value.isBytes

end Place

theorem spelling_ne_empty_of_isZero {x : Number.Binary64} (h : x.isZero = true) :
    x.spelling ≠ "" := by
  cases x with
  | finite negative magnitude =>
    have hzero : magnitude.mantissa = 0 := by simpa [Number.Binary64.isZero] using h
    simp [Number.Binary64.spelling, Number.Binary64.chars, hzero]
  | _ => cases h

/-- Of what is empty, zero or false, only nothing and the empty text are kept as the empty text. -/
theorem keepsText_empty_iff {p : Place} (hfalsy : p.value.isTruthy = false) :
    p.KeepsText (some "") ↔ p.value.isNull = true ∨ p.value.isText = true := by
  obtain ⟨location, demand, value⟩ := p
  cases value with
  | text t =>
    have hempty : t = "" := by simpa [Value.isTruthy] using hfalsy
    subst hempty
    exact iff_of_true (.inr ⟨rfl, rfl⟩) (.inr rfl)
  | int n =>
    have hzero : n = 0 := by simpa [Value.isTruthy] using hfalsy
    subst hzero
    have hdisplay : "" ≠ (Value.int 0).display := by decide
    simp [Place.KeepsText, hdisplay, Value.isNull, Value.isText]
  | float x =>
    have hzero : x.isZero = true := by simpa [Value.isTruthy] using hfalsy
    have hdisplay : "" ≠ (Value.float x).display := Ne.symm (spelling_ne_empty_of_isZero hzero)
    simp [Place.KeepsText, hdisplay, Value.isNull, Value.isText]
  | _ => simp [Place.KeepsText, Value.isTextual, Value.isNull, Value.isText]

theorem keepsText_iff_of_stores {p : Place} {stored : Option String} (h : p.Stores stored) :
    p.KeepsText stored ↔ p.dropsLink = false := by
  rw [Place.Stores] at h
  split_ifs at h with hfalsy
  · obtain ⟨hlink, hfalsy⟩ := hfalsy
    rw [h, keepsText_empty_iff hfalsy, Place.dropsLink, hlink, hfalsy]
    simp [or_iff_not_imp_left]
  · refine iff_of_true h ?_
    rw [not_and, Bool.not_eq_false] at hfalsy
    by_cases hlink : p.demand = .link
    · simp [Place.dropsLink, hfalsy hlink]
    · simp [Place.dropsLink, hlink]

theorem forall₂_keepsText_iff {ps : List Place} {ts : List (Option String)}
    (h : List.Forall₂ Place.Stores ps ts) :
    List.Forall₂ Place.KeepsText ps ts ↔ ∀ p ∈ ps, p.dropsLink = false := by
  induction h with
  | nil => simp
  | cons hp _ ih => rw [List.forall₂_cons, List.forall_mem_cons, ih, keepsText_iff_of_stores hp]

/-- A value that is admitted where a list belongs is a list unless it is bytes. -/
theorem holdsList_iff_of_admits {p : Place} (hlist : p.demand = .list)
    (h : p.demand.admits p.value = true) : p.HoldsList ↔ p.listsBytes = false := by
  obtain ⟨location, demand, value⟩ := p
  cases hlist
  cases value with
  | null | list _ | tuple _ | bytes _ => simp [Place.HoldsList, Place.listsBytes, Value.isBytes]
  | _ => cases h

variable {value : Value} {s : Schema}

theorem uniform_texts_iff (h : Schema.ofValue value = .ok s) :
    List.Forall₂ Place.KeepsText ((outline value).filter Place.takesText) s.texts ↔
      ∀ p ∈ outline value, p.dropsLink = false := by
  rw [forall₂_keepsText_iff (Schema.stored_of_ofValue h)]
  refine ⟨fun hall p hp => ?_, fun hall p hp => hall p (List.mem_of_mem_filter hp)⟩
  by_cases hlink : p.demand = .link
  · exact hall p (List.mem_filter.mpr ⟨hp, by simp [Place.takesText, hlink]⟩)
  · simp [Place.dropsLink, hlink]

theorem uniform_lists_iff (h : Schema.ofValue value = .ok s) :
    (∀ p ∈ outline value, p.demand = .list → p.HoldsList) ↔
      ∀ p ∈ outline value, p.listsBytes = false := by
  have hadmits := misfits_eq_nil_iff.mp ((Schema.checks_ofValue value).eq_ok_iff.mp ⟨s, h⟩)
  refine forall₂_congr fun p hp => ?_
  by_cases hlist : p.demand = .list
  · simp [hlist, ← holdsList_iff_of_admits hlist (hadmits p hp)]
  · simp [Place.listsBytes, hlist]

/-- **Where texts and lists do not follow one rule.** In a document that is read as a schema, every
text and every list follows its rule except at two kinds of places: links that are zero, false or
empty, and bytes where a list belongs. -/
theorem uniform_iff (h : Schema.ofValue value = .ok s) :
    Uniform value s ↔ ∀ p ∈ outline value, p.dropsLink = false ∧ p.listsBytes = false := by
  rw [forall₂_and, ← uniform_texts_iff h, ← uniform_lists_iff h]
  exact ⟨fun huniform => ⟨huniform.texts, huniform.lists⟩, fun ⟨htexts, hlists⟩ => ⟨htexts, hlists⟩⟩

/-- A document in which numbers stand for texts, and a tuple for a list. -/
def numberedDocument : Value :=
  .map [(.text "entities", .tuple [.map
    [(.text "name", .int 0), (.text "relationships", .list [.map
      [(.text "type", .int 1), (.text "model", .int 12), (.text "viaField", .text "noteId")]])]])]

/-- The schema of that document. -/
def numberedSchema : Schema where
  entities := [{
    name := "0"
    relationships := [{ type := "1", targetEntity := "12", viaField := "noteId" }] }]

theorem numbers_kept :
    Schema.ofValue numberedDocument = .ok numberedSchema ∧
      Uniform numberedDocument numberedSchema := by
  have hload : Schema.ofValue numberedDocument = .ok numberedSchema := by rfl
  exact ⟨hload, (uniform_iff hload).mpr (by decide)⟩

/-- A document with a relationship to an entity that is called zero. -/
def zeroLinkDocument : Value :=
  .map [(.text "entities", .list [.map
    [(.text "name", .text "Note"), (.text "relationships", .list [.map
      [(.text "targetEntity", .int 0)]])]])]

/-- A document with a role whose permissions are bytes. -/
def bytesDocument : Value :=
  .map [(.text "roles", .list [.map [(.text "permissions", .bytes [97])]])]

/-- Both documents are schemas. The link to zero is lost, and the bytes become permissions. -/
theorem zeroLink_dropped_and_bytes_listed :
    (∃ s, Schema.ofValue zeroLinkDocument = .ok s ∧ ¬ Uniform zeroLinkDocument s) ∧
      ∃ s, Schema.ofValue bytesDocument = .ok s ∧ ¬ Uniform bytesDocument s := by
  have hzero : Schema.ofValue zeroLinkDocument =
      .ok ⟨[{ name := "Note", relationships := [⟨"", "", ""⟩] }], []⟩ := by rfl
  have hbytes : Schema.ofValue bytesDocument =
      .ok ⟨[], [{ role := "", permissions := ["97"] }]⟩ := by rfl
  refine ⟨⟨_, hzero, fun huniform => ?_⟩, _, hbytes, fun huniform => ?_⟩
  · exact absurd ((uniform_texts_iff hzero).mp huniform.texts) (by decide)
  · exact absurd ((uniform_lists_iff hbytes).mp huniform.lists) (by decide)

end DocSchema
