import DocSchema.Proofs.Json.Rearranged
import DocSchema.Proofs.Report.Pages
import DocSchema.Proofs.Report.RowReading
import DocSchema.Proofs.Schema.Influence
import DocSchema.Report.Workbook

/-!
# Defaults in a report

The defaults of a schema are shown in one place of each form of its report: in the last cell of a row
for their field. This module compares two schemas that are the same but for their defaults. Their
documents are equal exactly if the cells of the defaults are, and so are their workbooks.

That the cells of a document are known from its text is not for free. A cell may hold line feeds and
anything that looks like a table. But a cell ends at the first pipe without a backslash in front, and
what stands between two cells of defaults is the same in both documents.

## Main definitions

* `AgreeIff`: when two lists are the same in front of anything
* `Schema.SameUpTo`: schemas that are the same but for their defaults

## Main results

* `Schema.markdown_eq_iff`, `Schema.workbook_eq_iff`: when reports are the same
-/

namespace DocSchema

open List (Forall₂)

/-! ## Lists that agree -/

section Agree

variable {α β γ : Type} {P Q : Prop} {as bs cs ds : List γ} {R : α → β → Prop}

/-- Two lists are the same, with any other lists behind them, exactly if a condition holds and the
lists behind them are the same. -/
def AgreeIff (P : Prop) (as bs : List γ) : Prop := ∀ xs ys, as ++ xs = bs ++ ys ↔ P ∧ xs = ys

namespace AgreeIff

theorem refl (as : List γ) : AgreeIff True as as := fun xs ys => by
  rw [List.append_cancel_left_eq, true_and]

theorem congr (h : AgreeIff P as bs) (hiff : P ↔ Q) : AgreeIff Q as bs := fun xs ys => by
  rw [h, hiff]

theorem append (h : AgreeIff P as bs) (h' : AgreeIff Q cs ds) :
    AgreeIff (P ∧ Q) (as ++ cs) (bs ++ ds) := fun xs ys => by
  rw [List.append_assoc, List.append_assoc, h, h', and_assoc]

/-- Lists with a common beginning. -/
theorem append_left (h : AgreeIff P as bs) (cs : List γ) : AgreeIff P (cs ++ as) (cs ++ bs) :=
  ((refl cs).append h).congr (iff_of_eq (true_and P))

/-- Lists with a common end. -/
theorem append_right (h : AgreeIff P as bs) (cs : List γ) : AgreeIff P (as ++ cs) (bs ++ cs) :=
  (h.append (refl cs)).congr (iff_of_eq (and_true P))

theorem eq_iff (h : AgreeIff P as bs) : as = bs ↔ P := by
  have hnil := h [] []
  rwa [List.append_nil, List.append_nil, eq_self_iff_true, and_true] at hnil

/-- Parts that agree one by one. -/
theorem flatMap {f : α → List γ} {g : β → List γ} {as : List α} {bs : List β}
    (h : Forall₂ (fun a b => AgreeIff (R a b) (f a) (g b)) as bs) :
    AgreeIff (Forall₂ R as bs) (as.flatMap f) (bs.flatMap g) := by
  induction h with
  | nil => exact (refl []).congr (iff_of_true trivial .nil)
  | cons hab _ ih =>
    rw [List.flatMap_cons, List.flatMap_cons]
    exact (hab.append ih).congr List.forall₂_cons.symm

theorem map {f : α → γ} {g : β → γ} {as : List α} {bs : List β}
    (h : Forall₂ (fun a b => f a = g b ↔ R a b) as bs) :
    AgreeIff (Forall₂ R as bs) (as.map f) (bs.map g) := by
  rw [List.map_eq_flatMap, List.map_eq_flatMap]
  refine flatMap (h.imp fun a b hab xs ys => ?_)
  rw [List.singleton_append, List.singleton_append, List.cons.injEq, hab]

end AgreeIff

end Agree

/-! ## Schemas with other defaults -/

variable {R S : Json → Json → Prop}

/-- Two fields are the same but for their defaults, which are related. -/
structure Field.SameUpTo (R : Json → Json → Prop) (f g : Field) : Prop where
  name : f.name = g.name
  type : f.type = g.type
  required : f.required = g.required
  ownership : f.ownership = g.ownership
  default : R f.default g.default

/-- Two entities are the same but for the defaults of their fields, which are related one by one. -/
structure Entity.SameUpTo (R : Json → Json → Prop) (e d : Entity) : Prop where
  name : e.name = d.name
  collectionName : e.collectionName = d.collectionName
  fields : Forall₂ (Field.SameUpTo R) e.fields d.fields
  relationships : e.relationships = d.relationships
  indexSpecs : e.indexSpecs = d.indexSpecs

/-- Two schemas are the same but for the defaults of their fields, which are related one by one. -/
structure Schema.SameUpTo (R : Json → Json → Prop) (s t : Schema) : Prop where
  entities : Forall₂ (Entity.SameUpTo R) s.entities t.entities
  roles : s.roles = t.roles

/-- Any two defaults. -/
def AnyDefault (_ _ : Json) : Prop := True

theorem Field.SameUpTo.iff_default {f g : Field} (h : f.SameUpTo AnyDefault g) :
    f.SameUpTo R g ↔ R f.default g.default :=
  ⟨fun hR => hR.default, fun hR => { h with default := hR }⟩

theorem Entity.SameUpTo.iff_fields {e d : Entity} (h : e.SameUpTo AnyDefault d) :
    e.SameUpTo R d ↔ Forall₂ (Field.SameUpTo R) e.fields d.fields :=
  ⟨fun hR => hR.fields, fun hR => { h with fields := hR }⟩

theorem Schema.SameUpTo.iff_entities {s t : Schema} (h : s.SameUpTo AnyDefault t) :
    s.SameUpTo R t ↔ Forall₂ (Entity.SameUpTo R) s.entities t.entities :=
  ⟨fun hR => hR.entities, fun hR => { h with entities := hR }⟩

/-- All defaults of a schema have a property. -/
def Schema.AllDefaults (P : Json → Prop) (s : Schema) : Prop :=
  ∀ e ∈ s.entities, ∀ f ∈ e.fields, P f.default

theorem Schema.allDefaults_true (s : Schema) : s.AllDefaults fun _ => True :=
  fun _ _ _ _ => trivial

/-- Defaults that are related one way and have some properties are related another way. -/
theorem Schema.SameUpTo.imp {P Q : Json → Prop} {s t : Schema} (h : s.SameUpTo R t)
    (hs : s.AllDefaults P) (ht : t.AllDefaults Q)
    (hRS : ∀ j k, P j → Q k → R j k → S j k) : s.SameUpTo S t := by
  have hall {α : Type} {T U : α → α → Prop} {p q : α → Prop} {as bs : List α}
      (hT : Forall₂ T as bs) (has : ∀ a ∈ as, p a) (hbs : ∀ b ∈ bs, q b)
      (hTU : ∀ a b, p a → q b → T a b → U a b) : Forall₂ U as bs := by
    induction hT with
    | nil => exact .nil
    | cons hab _ ih =>
      rw [List.forall_mem_cons] at has hbs
      exact .cons (hTU _ _ has.1 hbs.1 hab) (ih has.2 hbs.2)
  refine ⟨hall h.entities hs ht fun e d he hd hed => ?_, h.roles⟩
  refine { hed with fields := hall hed.fields he hd fun f g hf hg hfg => ?_ }
  exact { hfg with default := hRS _ _ hf hg hfg.default }

theorem Schema.SameUpTo.any {s t : Schema} (h : s.SameUpTo R t) : s.SameUpTo AnyDefault t :=
  h.imp s.allDefaults_true t.allDefaults_true fun _ _ _ _ _ => trivial

theorem Schema.SameUpTo.and {s t : Schema} (h : s.SameUpTo R t) (h' : s.SameUpTo S t) :
    s.SameUpTo (fun j k => R j k ∧ S j k) t := by
  refine ⟨h.entities.mp (fun e d he hd => ?_) h'.entities, h.roles⟩
  refine { he with fields := he.fields.mp (fun f g hf hg => ?_) hd.fields }
  exact { hf with default := ⟨hf.default, hg.default⟩ }

/-! ## What no default changes -/

theorem Entity.SameUpTo.sameAccess {e d : Entity} (h : e.SameUpTo R d) : e.SameAccess d where
  name := h.name
  collection := by rw [collection, collection, h.collectionName, h.name]
  fields := h.fields.imp fun _ _ hfield => ⟨hfield.name, hfield.ownership⟩

theorem Entity.SameUpTo.capacity_eq {e d : Entity} (h : e.SameUpTo R d) : e.capacity = d.capacity := by
  have htypes : e.fields.map Field.type = d.fields.map Field.type :=
    Json.map_eq_map_iff_forall₂.mpr (h.fields.imp fun _ _ => Field.SameUpTo.type)
  have hnested (e : Entity) : (e.fields.any fun f => nestedTypes.contains f.type) =
      (e.fields.map Field.type).any fun type => nestedTypes.contains type := by
    rw [List.any_map]
    rfl
  rw [capacity, capacity, sizeClass, sizeClass, hnested, hnested, htypes, h.fields.length_eq]

/-- A report without the fields of entities. -/
def Report.withoutFields (r : Report) : Report :=
  { r with entities := r.entities.map fun e => { e with fields := [] } }

/-- Schemas that are the same but for their defaults have the same report but for the fields. -/
theorem Schema.SameUpTo.withoutFields_eq {s t : Schema} (h : s.SameUpTo R t) :
    s.report.withoutFields = t.report.withoutFields := by
  have hmap {α : Type} {f : Entity → α} (hf : ∀ e d : Entity, e.SameUpTo R d → f e = f d) :
      s.entities.map f = t.entities.map f :=
    Json.map_eq_map_iff_forall₂.mpr (h.entities.imp hf)
  have hoverview : s.overview = t.overview := by
    have hfields := hmap fun e d hed => hed.fields.length_eq
    have hrelationships := hmap fun e d hed => congrArg List.length hed.relationships
    have hspecs := hmap fun e d hed => congrArg List.length hed.indexSpecs
    simp only [Schema.overview, List.length_flatMap, h.entities.length_eq, hfields, hrelationships,
      hspecs, h.roles]
  have hentities : s.report.withoutFields.entities = t.report.withoutFields.entities := by
    simp only [Report.withoutFields, Schema.report, List.map_map]
    exact hmap fun e d hed => by
      simp only [Function.comp_apply, Entity.breakdown, hed.sameAccess.collection, hed.name,
        hed.relationships, hed.indexSpecs]
  have haccess : s.report.access = t.report.access := hmap fun e d hed => by
    rw [Entity.access, Entity.access, hed.sameAccess.collection,
      Entity.policy_eq_of_sameAccess hed.sameAccess]
  have hcapacity : s.report.capacity = t.report.capacity := hmap fun e d hed => by
    rw [hed.sameAccess.collection, hed.capacity_eq]
  rw [Report.withoutFields, Report.withoutFields, Report.mk.injEq]
  exact ⟨hoverview, hentities, h.roles, haccess, hcapacity⟩

/-! ## Cells of a document -/

/-- A line of a page with its end. -/
def lineChars (line : String) : List Char := line.toList ++ ['\n']

theorem toList_joinLines {lines : List String} (h : lines ≠ []) :
    (joinLines lines).toList ++ ['\n'] = lines.flatMap lineChars := by
  induction lines with
  | nil => exact absurd rfl h
  | cons line rest ih =>
    cases rest with
    | nil => simp [joinLines, lineChars]
    | cons next rest =>
      rw [joinLines, String.intercalate_cons_cons, List.flatMap_cons, ← ih (List.cons_ne_nil _ _),
        joinLines, lineChars]
      simp

theorem joinLines_eq_iff {as bs : List String} (ha : as ≠ []) (hb : bs ≠ []) :
    joinLines as = joinLines bs ↔ as.flatMap lineChars = bs.flatMap lineChars := by
  rw [← toList_joinLines ha, ← toList_joinLines hb, List.append_cancel_right_eq, String.toList_inj]

namespace Table

theorem escapeChars_injective : Function.Injective escapeChars :=
  Function.LeftInverse.injective unescapeChars_escapeChars

/-- A cell is known up to the pipe behind it. -/
theorem agreeIff_escapeChars (as bs : List Char) :
    AgreeIff (as = bs) (escapeChars as ++ [' ', '|']) (escapeChars bs ++ [' ', '|']) := by
  have hsplit (cs xs : List Char) : splitCells false (escapeChars cs ++ [' ', '|'] ++ xs) =
      (escapeChars cs ++ [' ']) :: splitCells false xs := by
    rw [List.append_assoc]
    exact splitCells_escapeChars cs false rfl
  intro xs ys
  constructor
  · intro h
    have hcells := congrArg (splitCells false) h
    rw [hsplit, hsplit, List.cons.injEq, List.append_cancel_right_eq] at hcells
    obtain rfl := escapeChars_injective hcells.1
    exact ⟨rfl, List.append_cancel_left h⟩
  · rintro ⟨rfl, rfl⟩
    rfl

theorem rowChars_append (cells more : List String) :
    rowChars (cells ++ more) = rowChars cells ++ rowChars more := by
  induction cells with
  | nil => rfl
  | cons cell cells ih => simp [rowChars, ih]

/-- Rows that differ in the last cell only. -/
theorem agreeIff_row (cells : List String) (a b : String) :
    AgreeIff (a = b) (lineChars (row (cells ++ [a]))) (lineChars (row (cells ++ [b]))) := by
  have hchars (a : String) : lineChars (row (cells ++ [a])) =
      ('|' :: (rowChars cells ++ [' '])) ++ (escapeChars a.toList ++ [' ', '|']) ++ ['\n'] := by
    rw [lineChars, toList_row (by simp), rowChars_append]
    simp [rowChars]
  rw [hchars, hchars]
  exact (((agreeIff_escapeChars _ _).append_left _).append_right _).congr String.toList_inj

end Table

/-! ## The document -/

/-- Two defaults have the same text in a table. -/
def SameText (j k : Json) : Prop := defaultText j = defaultText k

theorem Field.SameUpTo.agreeIff_row {f g : Field} (h : f.SameUpTo AnyDefault g) :
    AgreeIff (f.SameUpTo SameText g) (lineChars (Table.row f.row))
      (lineChars (Table.row g.row)) := by
  have hrow (f : Field) : f.row =
      [f.name, f.type, if f.required then "✓" else ""] ++ [defaultText f.default] := rfl
  rw [hrow, hrow, h.name, h.type, h.required]
  exact (Table.agreeIff_row _ _ _).congr (h.iff_default (R := SameText)).symm

/-- The lines of a table of fields. -/
theorem flatMap_tableLines (header : List String) (fields : List Field) :
    (Table.lines header (fields.map Field.row)).flatMap lineChars =
      [Table.row header, Table.row (header.map fun _ => "---")].flatMap lineChars ++
        fields.flatMap fun f => lineChars (Table.row f.row) := by
  rw [Table.lines, List.map_map, List.flatMap_cons, List.flatMap_cons, List.flatMap_map]
  simp

/-- What an entity has to say about its fields. -/
def fieldLines (fields : List Field) : List String :=
  if fields.isEmpty then ["_No fields defined_"]
  else Table.lines fieldHeader (fields.map Field.row)

theorem agreeIff_fieldLines {fs gs : List Field} (h : Forall₂ (Field.SameUpTo AnyDefault) fs gs) :
    AgreeIff (Forall₂ (Field.SameUpTo SameText) fs gs) ((fieldLines fs).flatMap lineChars)
      ((fieldLines gs).flatMap lineChars) := by
  have hrows := AgreeIff.flatMap (h.imp fun _ _ => Field.SameUpTo.agreeIff_row)
  cases h with
  | nil => exact (AgreeIff.refl _).congr (iff_of_true trivial .nil)
  | cons _ _ =>
    rw [fieldLines, fieldLines, List.isEmpty_cons, List.isEmpty_cons, if_neg Bool.false_ne_true,
      if_neg Bool.false_ne_true, flatMap_tableLines, flatMap_tableLines]
    exact hrows.append_left _

theorem Entity.SameUpTo.agreeIff_chapter {e d : Entity} (h : e.SameUpTo AnyDefault d)
    (position : Nat) :
    AgreeIff (e.SameUpTo SameText d) ((e.breakdown.chapter position).flatMap lineChars)
      ((d.breakdown.chapter position).flatMap lineChars) := by
  have hchapter (e : Entity) : e.breakdown.chapter position =
      ["### " ++ toString position ++ ". " ++ e.collection ++ "/", "", "**Model:** " ++ e.name, ""] ++
        fieldLines e.fields ++ [""] := rfl
  rw [hchapter, hchapter, h.sameAccess.collection, h.name, List.flatMap_append,
    List.flatMap_append, List.flatMap_append, List.flatMap_append]
  exact (((agreeIff_fieldLines h.fields).append_left _).append_right _).congr h.iff_fields.symm

theorem forall₂_numbered {α : Type} {T : α → α → Prop} {as bs : List α} (h : Forall₂ T as bs) :
    Forall₂ (fun a b => a.1 = b.1 ∧ T a.2 b.2) (numbered as) (numbered bs) := by
  have hzip (positions : List Nat) :
      Forall₂ (fun a b => a.1 = b.1 ∧ T a.2 b.2) (positions.zip as) (positions.zip bs) := by
    induction h generalizing positions with
    | nil => simp
    | cons hab _ ih =>
      cases positions with
      | nil => exact .nil
      | cons position positions => exact .cons ⟨rfl, hab⟩ (ih positions)
  rw [numbered, numbered, h.length_eq]
  exact hzip _

theorem forall₂_numbered_iff {α : Type} {T : α → α → Prop} {as bs : List α} :
    Forall₂ (fun a b => T a.2 b.2) (numbered as) (numbered bs) ↔ Forall₂ T as bs := by
  conv_rhs => rw [← map_snd_numbered as, ← map_snd_numbered bs, List.forall₂_map_left_iff,
    List.forall₂_map_right_iff]

variable {s t : Schema}

theorem Schema.SameUpTo.agreeIff_entitiesPage (h : s.SameUpTo AnyDefault t) :
    AgreeIff (s.SameUpTo SameText t) (s.report.entitiesPage.flatMap lineChars)
      (t.report.entitiesPage.flatMap lineChars) := by
  have hpage (s : Schema) : s.report.entitiesPage.flatMap lineChars =
      (["## Collections & Fields", ""] ++
        if s.entities.isEmpty then ["_No data models defined yet._", ""] else []).flatMap lineChars ++
        (numbered s.entities).flatMap fun item =>
          (item.2.breakdown.chapter item.1).flatMap lineChars := by
    have hnumbered : numbered s.report.entities =
        (numbered s.entities).map (Prod.map id Entity.breakdown) := by
      rw [numbered, numbered, Schema.report, List.length_map, List.zip_map_right]
    rw [Report.entitiesPage, List.flatMap_append, hnumbered, List.flatMap_map, List.flatMap_assoc,
      Schema.report, List.isEmpty_map]
    rfl
  have hempty : s.entities.isEmpty = t.entities.isEmpty := by
    rcases s.entities, t.entities, h.entities with ⟨_, _, _ | _⟩ <;> rfl
  have hchapters := AgreeIff.flatMap (R := fun a b : Nat × Entity => a.2.SameUpTo SameText b.2)
    (f := fun item => (item.2.breakdown.chapter item.1).flatMap lineChars)
    (g := fun item => (item.2.breakdown.chapter item.1).flatMap lineChars)
    ((forall₂_numbered h.entities).imp fun a b hab => by
      rw [hab.1]
      exact hab.2.agreeIff_chapter b.1)
  rw [hpage, hpage, hempty]
  exact (hchapters.append_left _).congr (forall₂_numbered_iff.trans h.iff_entities.symm)

/-- The text in front of the page of entities. -/
def Report.beforeEntities (r : Report) : String :=
  "# Database Structure Preview\n" ++ ("\n---\n\n" ++ joinLines r.overview.page) ++ "\n---\n\n"

/-- The text behind the page of entities. -/
def Report.behindEntities (r : Report) : String :=
  String.join ([r.relationshipsPage, r.securityPage, r.indexesPage, r.capacityPage].map fun page =>
    "\n---\n\n" ++ joinLines page)

theorem Report.markdown_eq (r : Report) :
    r.markdown = r.beforeEntities ++ joinLines r.entitiesPage ++ r.behindEntities := by
  unfold markdown pages beforeEntities behindEntities
  rw [List.map_cons, List.map_cons, String.join_cons, String.join_cons]
  simp only [String.append_assoc]

theorem Report.beforeEntities_withoutFields (r : Report) :
    r.withoutFields.beforeEntities = r.beforeEntities := rfl

theorem Report.behindEntities_withoutFields (r : Report) :
    r.withoutFields.behindEntities = r.behindEntities := by
  have hrelationships : r.withoutFields.relationshipsPage = r.relationshipsPage := by
    simp [relationshipsPage, withoutFields, List.filter_map, List.flatMap_map, Function.comp_def]
  have hindexes : r.withoutFields.indexesPage = r.indexesPage := by
    simp [indexesPage, withoutFields, List.filter_map, List.flatMap_map, Function.comp_def]
  rw [behindEntities, behindEntities, hrelationships, hindexes]
  rfl

/-- **Documents.** Where schemas are the same but for their defaults, their documents are equal
exactly if all defaults have the same text. -/
theorem Schema.markdown_eq_iff (h : s.SameUpTo AnyDefault t) :
    s.report.markdown = t.report.markdown ↔ s.SameUpTo SameText t := by
  have hpage (s : Schema) : s.report.entitiesPage ≠ [] := List.cons_ne_nil _ _
  have hbefore : s.report.beforeEntities = t.report.beforeEntities := by
    rw [← Report.beforeEntities_withoutFields, h.withoutFields_eq,
      Report.beforeEntities_withoutFields]
  have hbehind : s.report.behindEntities = t.report.behindEntities := by
    rw [← Report.behindEntities_withoutFields, h.withoutFields_eq,
      Report.behindEntities_withoutFields]
  rw [Report.markdown_eq, Report.markdown_eq, hbefore, hbehind, String.append_left_inj,
    String.append_right_inj, joinLines_eq_iff (hpage s) (hpage t)]
  exact h.agreeIff_entitiesPage.eq_iff

/-! ## The workbook -/

/-- Two defaults have the same cell in a workbook. -/
def SameCell (j k : Json) : Prop := Cell.ofJson j = Cell.ofJson k

theorem Entity.SameUpTo.agreeIff_fieldCells {e d : Entity} (h : e.SameUpTo AnyDefault d) :
    AgreeIff (e.SameUpTo SameCell d) e.breakdown.fieldCells d.breakdown.fieldCells := by
  refine (AgreeIff.map (h.fields.imp fun f g hfield => ?_)).congr h.iff_fields.symm
  rw [hfield.iff_default]
  simp [Entity.breakdown, h.sameAccess.collection, h.name, hfield.name, hfield.type,
    hfield.required, SameCell]

/-- All sheets behind that of the fields. -/
def Report.sheetsBehindFields (r : Report) : List Sheet := r.workbook.sheets.drop 2

theorem Report.sheetsBehindFields_withoutFields (r : Report) :
    r.withoutFields.sheetsBehindFields = r.sheetsBehindFields := by
  have hrelationships : r.withoutFields.entities.flatMap EntityBreakdown.relationshipCells =
      r.entities.flatMap EntityBreakdown.relationshipCells := List.flatMap_map ..
  have hindexes : r.withoutFields.entities.flatMap EntityBreakdown.indexCells =
      r.entities.flatMap EntityBreakdown.indexCells := List.flatMap_map ..
  simp only [sheetsBehindFields, workbook, hrelationships, hindexes]
  rfl

theorem Report.overview_withoutFields (r : Report) : r.withoutFields.overview = r.overview := rfl

theorem Report.workbook_eq (r : Report) :
    r.workbook = ⟨r.overview.sheet :: .table "Entities"
      ["Collection", "Model", "Field", "Type", "Required", "Default"]
      (r.entities.flatMap EntityBreakdown.fieldCells) :: r.sheetsBehindFields⟩ := rfl

/-- **Workbooks.** Where schemas are the same but for their defaults, their workbooks are equal
exactly if all defaults have the same cell. -/
theorem Schema.workbook_eq_iff (h : s.SameUpTo AnyDefault t) :
    s.report.workbook = t.report.workbook ↔ s.SameUpTo SameCell t := by
  have hoverview : s.report.withoutFields.overview = t.report.withoutFields.overview := by
    rw [h.withoutFields_eq]
  have hbehind : s.report.sheetsBehindFields = t.report.sheetsBehindFields := by
    rw [← Report.sheetsBehindFields_withoutFields, h.withoutFields_eq,
      Report.sheetsBehindFields_withoutFields]
  have hcells (s : Schema) : s.report.entities.flatMap EntityBreakdown.fieldCells =
      s.entities.flatMap fun e => e.breakdown.fieldCells := List.flatMap_map ..
  have hagree := AgreeIff.flatMap (h.entities.imp fun _ _ => Entity.SameUpTo.agreeIff_fieldCells)
  rw [Report.workbook_eq, Report.workbook_eq, ← s.report.overview_withoutFields, hoverview,
    t.report.overview_withoutFields, hbehind, hcells, hcells]
  simp only [Sheet.table, Workbook.mk.injEq, List.cons.injEq, Sheet.mk.injEq, true_and, and_true]
  exact hagree.eq_iff.trans h.iff_entities.symm

end DocSchema
