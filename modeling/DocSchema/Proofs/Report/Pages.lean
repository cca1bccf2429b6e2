import DocSchema.Proofs.Report.Breaks
import DocSchema.Schema.Load
import DocSchema.Schema.Violation

/-!
# Pages and tables of the Markdown document

The document is meant to have a break in front of each of its six pages, and tables with one line for
each row. Texts of a schema come into it at many places. In a table a line feed breaks a row, since
only pipes are escaped there. Elsewhere a line feed does no such harm, unless what stands behind it is
a break: then the document has a page that is none.

## Main definitions

* `Report.tables`: the tables of a document
* `Report.Structured`: a document with its six pages and its tables
* `Schema.KeepsRows`, `Schema.KeepsPages`: a schema without texts that would break them

## Main results

* `structured_report_iff`: the schemas whose documents have their structure
* `brokenReport_not_structured`: a schema without violations whose document has not
-/

namespace DocSchema

open Text (linesOf)

/-! ## The lines of the document -/

/-- A page with a break in front of it adds its lines. -/
theorem linesOf_append_page (before : String) {page : List String} (h : page ≠ []) :
    linesOf (before ++ ("\n---\n\n" ++ joinLines page)) =
      linesOf before ++ "---" :: "" :: page.flatMap linesOf := by
  have hbreak : linesOf "---" = ["---"] := Text.linesOf_of_notMem (by decide)
  have hempty : linesOf "" = [""] := Text.linesOf_of_notMem (by decide)
  have htext : before ++ ("\n---\n\n" ++ joinLines page) =
      before ++ "\n" ++ ("---" ++ "\n" ++ ("" ++ "\n" ++ joinLines page)) := by
    simp only [← String.toList_inj, String.toList_append]
    simp
  rw [htext, Text.linesOf_append, Text.linesOf_append, Text.linesOf_append,
    Text.linesOf_joinLines h, hbreak, hempty, List.singleton_append, List.singleton_append]

theorem linesOf_append_pages {pages : List (List String)} (h : ∀ page ∈ pages, page ≠ [])
    (before : String) :
    linesOf (before ++ String.join (pages.map fun page => "\n---\n\n" ++ joinLines page)) =
      linesOf before ++ pages.flatMap fun page => "---" :: "" :: page.flatMap linesOf := by
  induction pages generalizing before with
  | nil => simp
  | cons page pages ih =>
    rw [List.forall_mem_cons] at h
    rw [List.map_cons, String.join_cons, ← String.append_assoc, ih h.2,
      linesOf_append_page before h.1, List.flatMap_cons, List.append_assoc]

theorem linesOf_title :
    linesOf "# Database Structure Preview\n" = ["# Database Structure Preview", ""] := by
  have htext : "# Database Structure Preview\n" =
      "# Database Structure Preview" ++ "\n" ++ "" := by decide
  rw [htext, Text.linesOf_append, Text.linesOf_of_notMem (by decide),
    Text.linesOf_of_notMem (by decide), List.singleton_append]

/-- The headings of the pages. -/
def pageHeadings : List String :=
  ["## Overview", "## Collections & Fields", "## Relationships", "## Security Rules", "## Indexes",
   "## Storage Estimates"]

/-- Every page starts with its heading. -/
theorem pages_headed (r : Report) :
    List.Forall₂ (fun page heading => ∃ rest, page = heading :: rest) r.pages pageHeadings :=
  .cons ⟨_, rfl⟩ <| .cons ⟨_, rfl⟩ <| .cons ⟨_, rfl⟩ <| .cons ⟨_, rfl⟩ <| .cons ⟨_, rfl⟩ <|
    .cons ⟨_, rfl⟩ .nil

/-- The document is made of the lines of its pages, with a break in front of each page. -/
theorem linesOf_markdown (r : Report) :
    linesOf r.markdown = "# Database Structure Preview" :: "" ::
      r.pages.flatMap fun page => "---" :: "" :: page.flatMap linesOf := by
  have hheaded : List.Forall₂ (fun page heading => page ≠ [] ∧ ∃ rest, page = heading :: rest)
      r.pages pageHeadings := by
    refine (pages_headed r).imp ?_
    rintro _ heading ⟨rest, rfl⟩
    exact ⟨List.cons_ne_nil _ _, rest, rfl⟩
  have h := linesOf_append_pages ((List.forall₂_and_left _ _).mp hheaded).1
    "# Database Structure Preview\n"
  rw [linesOf_title] at h
  exact h

theorem head?_pages (r : Report) :
    r.pages.map (fun page => (page.flatMap linesOf).head?) = pageHeadings.map some := by
  have hclean : ∀ heading ∈ pageHeadings, '\n' ∉ heading.toList := by decide
  have hheaded := pages_headed r
  generalize r.pages = pages at hheaded
  generalize pageHeadings = headings at hheaded hclean
  induction hheaded with
  | nil => rfl
  | @cons page heading pages headings hfirst hrest ih =>
    obtain ⟨rest, rfl⟩ := hfirst
    rw [List.forall_mem_cons] at hclean
    rw [List.map_cons, List.map_cons, ih hclean.2, List.flatMap_cons,
      Text.linesOf_of_notMem hclean.1]
    rfl

/-! ## Structure -/

/-- The header of a table of fields. -/
def fieldHeader : List String := ["Field", "Type", "Required", "Default"]

/-- The header of the table of rights. -/
def accessHeader : List String := ["Collection", "Policy", "Read", "Create", "Update", "Delete"]

/-- The header of the table of capacity estimates. -/
def capacityHeader : List String := ["Collection", "Est. Doc Size", "Free Tier", "Notes"]

/-- The tables of the document with their headers: the fields of each entity that has fields, the
rights, and the capacity estimates. -/
def Report.tables (r : Report) : List (List String × List (List String)) :=
  (r.entities.filter fun e => !e.fields.isEmpty).map
      (fun e => (fieldHeader, e.fields.map Field.row))
    ++ (if r.access.isEmpty then [] else [(accessHeader, r.access.map CollectionAccess.row)])
    ++ (if r.capacity.isEmpty then [] else [(capacityHeader, r.capacity.map CapacityRow.row)])

/-- The document of a report has its structure: a title and six pages in their order, with six
breaks, one in front of each page; and every table is there with a line for each of its rows. -/
structure Report.Structured (r : Report) : Prop where
  count_breaks : (linesOf r.markdown).count "---" = 6
  pages : ∃ pages : List (List String),
    linesOf r.markdown = "# Database Structure Preview" :: "" ::
      (pages.flatMap fun page => "---" :: "" :: page) ∧
    pages.map List.head? = pageHeadings.map some ∧ ∀ page ∈ pages, "---" ∉ page
  tables : ∀ table ∈ r.tables, Table.Intact table.1 table.2 ∧
    linesOf (joinLines (Table.lines table.1 table.2)) <:+: linesOf r.markdown

theorem flatMap_infix_flatMap {α β : Type} {as bs : List α} (h : as <:+: bs) (f : α → List β) :
    as.flatMap f <:+: bs.flatMap f := by
  obtain ⟨before, after, rfl⟩ := h
  rw [List.flatMap_append, List.flatMap_append]
  exact List.infix_append _ _ _

theorem infix_flatMap_of_mem {α β : Type} {a : α} {as : List α} (h : a ∈ as) (f : α → List β) :
    f a <:+: as.flatMap f := by
  obtain ⟨before, after, rfl⟩ := List.append_of_mem h
  rw [List.flatMap_append, List.flatMap_cons, ← List.append_assoc]
  exact List.infix_append _ _ _

theorem map_snd_numbered {α : Type} (items : List α) :
    (numbered items).map Prod.snd = items :=
  List.map_snd_zip (by simp)

theorem forall_mem_numbered {α : Type} {P : α → Prop} {items : List α} :
    (∀ item ∈ numbered items, P item.2) ↔ ∀ a ∈ items, P a := by
  constructor
  · intro h a ha
    rw [← map_snd_numbered items] at ha
    obtain ⟨item, hitem, rfl⟩ := List.mem_map.mp ha
    exact h item hitem
  · exact fun h item hitem => h _ (map_snd_numbered items ▸ List.mem_map_of_mem hitem)

/-- What is next to each other on a page is so in the document. -/
theorem infix_linesOf_markdown {r : Report} {page lines : List String} (hpage : page ∈ r.pages)
    (hlines : lines <:+: page) : lines.flatMap linesOf <:+: linesOf r.markdown := by
  rw [linesOf_markdown]
  have hinside : page.flatMap linesOf <:+:
      r.pages.flatMap fun page => "---" :: "" :: page.flatMap linesOf :=
    List.IsInfix.trans ⟨["---", ""], [], List.append_nil _⟩
      (infix_flatMap_of_mem hpage fun page => "---" :: "" :: page.flatMap linesOf)
  exact (flatMap_infix_flatMap hlines linesOf).trans
    (hinside.trans ⟨["# Database Structure Preview", ""], [], List.append_nil _⟩)

/-- Every table is somewhere in the document. -/
theorem infix_of_mem_tables {r : Report} {table : List String × List (List String)}
    (h : table ∈ r.tables) :
    linesOf (joinLines (Table.lines table.1 table.2)) <:+: linesOf r.markdown := by
  rw [Table.linesOf_lines]
  rw [Report.tables, List.mem_append, List.mem_append, List.mem_map] at h
  rcases h with (⟨e, he, rfl⟩ | h) | h
  · obtain ⟨hmem, hfields⟩ := List.mem_filter.mp he
    rw [← map_snd_numbered r.entities, List.mem_map] at hmem
    obtain ⟨⟨position, e⟩, hmem, rfl⟩ := hmem
    have hpage : r.entitiesPage ∈ r.pages := by simp [Report.pages]
    refine infix_linesOf_markdown hpage ?_
    have hchapter : e.chapter position <:+: r.entitiesPage :=
      (infix_flatMap_of_mem hmem fun item => item.2.chapter item.1).trans
        (List.suffix_append _ _).isInfix
    refine List.IsInfix.trans ?_ hchapter
    rw [EntityBreakdown.chapter, if_neg (by simpa using hfields)]
    exact List.infix_append _ _ _
  · split_ifs at h with hempty
    · cases h
    · rw [List.mem_singleton.mp h]
      have hpage : r.securityPage ∈ r.pages := by simp [Report.pages]
      refine infix_linesOf_markdown hpage ?_
      rw [Report.securityPage, if_neg hempty, ← List.append_assoc]
      exact List.infix_append _ _ _
  · split_ifs at h with hempty
    · cases h
    · rw [List.mem_singleton.mp h]
      have hpage : r.capacityPage ∈ r.pages := by simp [Report.pages]
      refine infix_linesOf_markdown hpage ?_
      rw [Report.capacityPage, if_neg hempty, ← List.append_assoc, List.append_assoc]
      exact List.infix_append _ _ _

/-! ## Tables -/

/-- No text in a table has a line feed: neither a collection, nor the name or the type of a field,
nor a default that is a text. -/
structure Schema.KeepsRows (s : Schema) : Prop where
  collections : ∀ e ∈ s.entities, '\n' ∉ e.collection.toList
  names : ∀ e ∈ s.entities, ∀ f ∈ e.fields, '\n' ∉ f.name.toList
  types : ∀ e ∈ s.entities, ∀ f ∈ e.fields, '\n' ∉ f.type.toList
  defaults : ∀ e ∈ s.entities, ∀ f ∈ e.fields, ∀ t, f.default = .text t → '\n' ∉ t.toList

theorem Field.newline_notMem_row_iff (f : Field) :
    (∀ cell ∈ f.row, '\n' ∉ cell.toList) ↔ '\n' ∉ f.name.toList ∧ '\n' ∉ f.type.toList ∧
      ∀ t, f.default = .text t → '\n' ∉ t.toList := by
  have hrequired : '\n' ∉ (if f.required then "✓" else "").toList := by split <;> decide
  simp only [row, List.forall_mem_cons, newline_notMem_defaultText, List.not_mem_nil,
    false_implies, implies_true, and_true, hrequired, not_false_eq_true, true_and]

theorem CollectionAccess.newline_notMem_row_iff (a : CollectionAccess) :
    (∀ cell ∈ a.row, '\n' ∉ cell.toList) ↔ '\n' ∉ a.collection.toList := by
  have hpolicy : '\n' ∉ a.policy.text.toList := by cases a.policy <;> simp [AccessPolicy.text]
  have hgrantee : ∀ g : Grantee, '\n' ∉ g.text.toList := by
    intro g
    cases g <;> decide
  simp only [row, List.forall_mem_cons, List.not_mem_nil, false_implies, implies_true, and_true,
    hpolicy, hgrantee, not_false_eq_true]

theorem CapacityRow.newline_notMem_row_iff (c : CapacityRow) :
    (∀ cell ∈ c.row, '\n' ∉ cell.toList) ↔ '\n' ∉ c.collection.toList := by
  have hnote : '\n' ∉ c.estimate.sizeClass.note.toList := by
    cases c.estimate.sizeClass <;> decide
  simp only [row, List.forall_mem_cons, List.not_mem_nil, false_implies, implies_true, and_true,
    newline_notMem_docSizeText, newline_notMem_freeTierText, hnote, not_false_eq_true]

/-- A table with a fixed header is intact if the texts in its rows are. -/
theorem intact_map_iff {α : Type} {header : List String} (rowOf : α → List String) (items : List α)
    (hheader : header ≠ [] ∧ ∀ cell ∈ header, '\n' ∉ cell.toList)
    (hlength : ∀ item, (rowOf item).length = header.length) :
    Table.Intact header (items.map rowOf) ↔
      ∀ item ∈ items, ∀ cell ∈ rowOf item, '\n' ∉ cell.toList := by
  rw [Table.intact_iff hheader.1 (List.forall_mem_map.mpr fun item _ => hlength item),
    List.forall_mem_map]
  exact and_iff_right hheader.2

theorem Entity.intact_fields_iff (e : Entity) :
    Table.Intact fieldHeader (e.breakdown.fields.map Field.row) ↔
      ∀ f ∈ e.fields, '\n' ∉ f.name.toList ∧ '\n' ∉ f.type.toList ∧
        ∀ t, f.default = .text t → '\n' ∉ t.toList := by
  rw [@intact_map_iff _ fieldHeader Field.row _ (by decide) fun _ => rfl]
  exact forall₂_congr fun f _ => f.newline_notMem_row_iff

theorem Schema.intact_access_iff (s : Schema) :
    Table.Intact accessHeader (s.report.access.map CollectionAccess.row) ↔
      ∀ e ∈ s.entities, '\n' ∉ e.collection.toList := by
  rw [@intact_map_iff _ accessHeader CollectionAccess.row _ (by decide) fun _ => rfl]
  simp only [CollectionAccess.newline_notMem_row_iff]
  exact List.forall_mem_map

theorem Schema.intact_capacity_iff (s : Schema) :
    Table.Intact capacityHeader (s.report.capacity.map CapacityRow.row) ↔
      ∀ e ∈ s.entities, '\n' ∉ e.collection.toList := by
  have hlength : ∀ c : CapacityRow, c.row.length = capacityHeader.length := fun c => by
    simp only [CapacityRow.row, capacityHeader, List.length_cons]
  rw [intact_map_iff CapacityRow.row _ (by decide) hlength]
  simp only [CapacityRow.newline_notMem_row_iff]
  exact List.forall_mem_map

/-- All tables are intact exactly if the texts in their rows are. -/
theorem intact_tables_iff (s : Schema) :
    (∀ table ∈ s.report.tables, Table.Intact table.1 table.2) ↔ s.KeepsRows := by
  constructor
  · intro h
    simp only [Report.tables, List.forall_mem_append, List.forall_mem_map] at h
    obtain ⟨⟨htables, hrights⟩, -⟩ := h
    have hrows : ∀ e ∈ s.entities, ∀ f ∈ e.fields, '\n' ∉ f.name.toList ∧
        '\n' ∉ f.type.toList ∧ ∀ t, f.default = .text t → '\n' ∉ t.toList := by
      intro e he f hf
      have hmem : e.breakdown ∈ s.report.entities.filter fun e => !e.fields.isEmpty := by
        refine List.mem_filter.mpr ⟨List.mem_map_of_mem he, ?_⟩
        simpa [Entity.breakdown] using List.ne_nil_of_mem hf
      exact e.intact_fields_iff.mp (htables _ hmem) f hf
    refine ⟨fun e he => ?_, fun e he f hf => (hrows e he f hf).1,
      fun e he f hf => (hrows e he f hf).2.1, fun e he f hf => (hrows e he f hf).2.2⟩
    have hsome : s.report.access.isEmpty = false := by
      simpa [Schema.report] using List.ne_nil_of_mem he
    rw [hsome] at hrights
    exact s.intact_access_iff.mp (hrights _ (List.mem_singleton.mpr rfl)) e he
  · intro h table htable
    simp only [Report.tables, List.mem_append, List.mem_map] at htable
    rcases htable with (⟨b, hb, rfl⟩ | htable) | htable
    · obtain ⟨hmem, -⟩ := List.mem_filter.mp hb
      obtain ⟨e, he, rfl⟩ := List.mem_map.mp hmem
      exact e.intact_fields_iff.mpr fun f hf =>
        ⟨h.names e he f hf, h.types e he f hf, h.defaults e he f hf⟩
    · split_ifs at htable
      · cases htable
      · rw [List.mem_singleton.mp htable]
        exact s.intact_access_iff.mpr h.collections
    · split_ifs at htable
      · cases htable
      · rw [List.mem_singleton.mp htable]
        exact s.intact_capacity_iff.mpr h.collections

/-! ## Pages -/

/-- No text outside of the tables has a break. A text that ends its line must not end in the start
of a break either. -/
structure Schema.KeepsPages (s : Schema) : Prop where
  models : ∀ e ∈ s.entities, ¬ HoldsBreak (e.name.toList ++ ['\n'])
  relationships : ∀ e ∈ s.entities, ∀ r ∈ e.relationships, ¬ HoldsBreak r.type.toList ∧
    ¬ HoldsBreak r.targetEntity.toList ∧ ¬ HoldsBreak r.viaField.toList
  indexes : ∀ e ∈ s.entities, ∀ spec ∈ e.indexSpecs, ¬ HoldsBreak (", ".intercalate spec).toList
  roles : ∀ r ∈ s.roles, ¬ HoldsBreak r.role.toList
  permissions : ∀ r ∈ s.roles, ¬ HoldsBreak ((", ".intercalate r.permissions).toList ++ ['\n'])

variable {s : Schema}

theorem Overview.unbroken_page (o : Overview) : Unbroken o.page := by
  have hfigure := fun label (hlabel : ¬ HoldsBreak label.toList) n =>
    mt (break_mem_figureLine_iff label n).mp hlabel
  rw [Overview.page]
  simp only [unbroken_cons]
  exact ⟨break_notMem_of_notMem (by decide) (by decide),
    break_notMem_of_notMem (by decide) (by decide),
    hfigure "**Collections:**" (by decide +kernel) _,
    hfigure "**Total Fields:**" (by decide +kernel) _,
    hfigure "**Relationships:**" (by decide +kernel) _,
    hfigure "**Indexes:**" (by decide +kernel) _,
    hfigure "**User Roles:**" (by decide +kernel) _,
    break_notMem_of_notMem (by decide) (by decide), List.forall_mem_nil _⟩

theorem Schema.KeepsRows.unbroken_chapter_iff (h : s.KeepsRows) {e : Entity} (he : e ∈ s.entities)
    (position : Nat) :
    Unbroken (e.breakdown.chapter position) ↔ ¬ HoldsBreak (e.name.toList ++ ['\n']) := by
  have hcollection := break_notMem_collectionHeading (h.collections e he) position
  have hfields : Unbroken (if e.breakdown.fields.isEmpty then ["_No fields defined_"]
      else Table.lines fieldHeader (e.breakdown.fields.map Field.row)) := by
    split_ifs
    · exact unbroken_of_forall_mem (by decide)
    · exact unbroken_table (e.intact_fields_iff.mpr fun f hf =>
        ⟨h.names e he f hf, h.types e he f hf, h.defaults e he f hf⟩)
  rw [EntityBreakdown.chapter, unbroken_append_right_iff (by decide), unbroken_append]
  simp only [unbroken_cons]
  rw [show e.breakdown.collection = e.collection from rfl,
    show e.breakdown.model = e.name from rfl, break_mem_modelLine_iff]
  refine ⟨fun hlines => hlines.1.2.2.1, fun hname => ⟨⟨hcollection, ?_, hname, ?_, ?_⟩, hfields⟩⟩
  · exact break_notMem_of_notMem (by decide) (by decide)
  · exact break_notMem_of_notMem (by decide) (by decide)
  · exact List.forall_mem_nil _

/-- The page of entities, where no collection and no text in a table has a line feed. -/
theorem unbroken_entitiesPage_iff (h : s.KeepsRows) :
    Unbroken s.report.entitiesPage ↔
      ∀ e ∈ s.entities, ¬ HoldsBreak (e.name.toList ++ ['\n']) := by
  rw [Report.entitiesPage, unbroken_append, unbroken_flatMap]
  refine (and_iff_right (unbroken_heading (by decide))).trans ?_
  calc (∀ item ∈ numbered s.report.entities, Unbroken (item.2.chapter item.1))
      ↔ ∀ item ∈ numbered s.report.entities, ¬ HoldsBreak (item.2.model.toList ++ ['\n']) := by
        refine forall₂_congr fun item hitem => ?_
        have hmem : item.2 ∈ s.report.entities :=
          map_snd_numbered s.report.entities ▸ List.mem_map_of_mem hitem
        obtain ⟨e, he, heq⟩ := List.mem_map.mp hmem
        rw [← heq]
        exact h.unbroken_chapter_iff he item.1
    _ ↔ ∀ b ∈ s.report.entities, ¬ HoldsBreak (b.model.toList ++ ['\n']) :=
        @forall_mem_numbered _ (fun b : EntityBreakdown => ¬ HoldsBreak (b.model.toList ++ ['\n'])) _
    _ ↔ _ := List.forall_mem_map

/-- The page of relationships has the names of the entities that have any. -/
theorem unbroken_relationshipsPage_iff :
    Unbroken s.report.relationshipsPage ↔ ∀ e ∈ s.entities, e.relationships ≠ [] →
      ¬ HoldsBreak (e.name.toList ++ ['\n']) ∧ ∀ r ∈ e.relationships,
        ¬ HoldsBreak r.type.toList ∧ ¬ HoldsBreak r.targetEntity.toList ∧
          ¬ HoldsBreak r.viaField.toList := by
  have hpart (e : Entity) : Unbroken (["### " ++ e.breakdown.model, ""] ++
      e.breakdown.relationships.map RelationshipSummary.line ++ [""]) ↔
        ¬ HoldsBreak (e.name.toList ++ ['\n']) ∧ ∀ r ∈ e.relationships,
          ¬ HoldsBreak r.type.toList ∧ ¬ HoldsBreak r.targetEntity.toList ∧
            ¬ HoldsBreak r.viaField.toList := by
    rw [unbroken_append_right_iff (by decide), unbroken_append, unbroken_cons, unbroken_map,
      break_mem_modelHeading_iff]
    refine and_congr (and_iff_left (unbroken_of_forall_mem (by decide))) ?_
    refine List.forall_mem_map.trans (forall₂_congr fun r _ => ?_)
    rw [RelationshipSummary.break_mem_line_iff, not_or, not_or]
  rw [Report.relationshipsPage, unbroken_append, unbroken_flatMap]
  refine (and_iff_right (unbroken_heading (by decide))).trans ?_
  simp only [List.mem_filter, Schema.report, List.mem_map, and_imp, forall_exists_index,
    forall_apply_eq_imp_iff₂, hpart]
  refine forall₂_congr fun e _ => imp_congr_left ?_
  simp [Entity.breakdown]

theorem unbroken_securityPage_iff (h : s.KeepsRows) :
    Unbroken s.report.securityPage ↔ ∀ r ∈ s.roles, ¬ HoldsBreak r.role.toList ∧
      ¬ HoldsBreak ((", ".intercalate r.permissions).toList ++ ['\n']) := by
  have hroles : Unbroken (if s.report.roles.isEmpty then ["_No user roles defined._"]
      else ["**User Roles:**", ""] ++ s.report.roles.map Role.line) ↔
        ∀ r ∈ s.roles, ¬ HoldsBreak r.role.toList ∧
          ¬ HoldsBreak ((", ".intercalate r.permissions).toList ++ ['\n']) := by
    split_ifs with hempty
    · refine iff_of_true (unbroken_of_forall_mem (by decide)) fun r hr => ?_
      exact absurd (List.isEmpty_iff.mp hempty) (List.ne_nil_of_mem hr)
    · rw [unbroken_append_left_iff (by decide), unbroken_map]
      exact forall₂_congr fun r _ => by rw [Role.break_mem_line_iff, not_or]
  rw [Report.securityPage, unbroken_append, unbroken_append_right_iff (by decide),
    unbroken_append_left_iff (by decide), hroles]
  exact and_iff_left (unbroken_table_or_nothing (s.intact_access_iff.mpr h.collections))

theorem unbroken_indexesPage_iff (h : s.KeepsRows) :
    Unbroken s.report.indexesPage ↔ ∀ e ∈ s.entities, ∀ spec ∈ e.indexSpecs,
      ¬ HoldsBreak (", ".intercalate spec).toList := by
  have hheading (e : Entity) (he : e ∈ s.entities) :
      Unbroken ["### " ++ e.breakdown.collection, ""] := by
    rw [unbroken_cons, break_mem_modelHeading_iff]
    exact ⟨not_holdsBreak_concat_of_notMem (h.collections e he),
      unbroken_of_forall_mem (by decide)⟩
  have hspecs (e : Entity) : (∀ item ∈ numbered e.indexSpecs, "---" ∉ linesOf
      (toString item.1 ++ ". Composite: [" ++ ", ".intercalate item.2 ++ "]")) ↔
        ∀ spec ∈ e.indexSpecs, ¬ HoldsBreak (", ".intercalate spec).toList :=
    calc (∀ item ∈ numbered e.indexSpecs, "---" ∉ linesOf
            (toString item.1 ++ ". Composite: [" ++ ", ".intercalate item.2 ++ "]"))
        ↔ ∀ item ∈ numbered e.indexSpecs, ¬ HoldsBreak (", ".intercalate item.2).toList :=
          forall₂_congr fun item _ => not_congr (break_mem_indexLine_iff item.1 _)
      _ ↔ _ := @forall_mem_numbered _ (fun spec => ¬ HoldsBreak (", ".intercalate spec).toList) _
  rw [Report.indexesPage, unbroken_append, unbroken_flatMap]
  refine (and_iff_right (unbroken_heading (by decide +kernel))).trans ?_
  simp only [List.mem_filter, Schema.report, List.mem_map, and_imp, forall_exists_index,
    forall_apply_eq_imp_iff₂]
  refine forall₂_congr fun e he => ?_
  rw [unbroken_append_right_iff (by decide), unbroken_append, unbroken_map,
    and_iff_right (hheading e he)]
  -- An entity without index specifications is passed over.
  refine ⟨fun hlines spec hspec => (hspecs e).mp (hlines ?_) spec hspec,
    fun hclean _ => (hspecs e).mpr hclean⟩
  simpa [Entity.breakdown] using List.ne_nil_of_mem hspec

theorem unbroken_capacityPage (h : s.KeepsRows) : Unbroken s.report.capacityPage := by
  rw [Report.capacityPage, unbroken_append_right_iff (by decide),
    unbroken_append_left_iff (by decide)]
  exact unbroken_table_or_nothing (s.intact_capacity_iff.mpr h.collections)

/-! ## The whole document -/

/-- There are as many breaks as pages, and those on the pages. -/
theorem count_break_flatMap (pages : List (List String)) :
    (pages.flatMap fun page => "---" :: "" :: page).count "---" =
      pages.length + pages.flatten.count "---" := by
  induction pages with
  | nil => rfl
  | cons page pages ih =>
    have hpage : ("---" :: "" :: page).count "---" = page.count "---" + 1 := by
      rw [List.count_cons_self, List.count_cons_of_ne (by decide)]
    rw [List.flatMap_cons, List.count_append, hpage, ih, List.flatten_cons, List.count_append,
      List.length_cons]
    omega

/-- There are six breaks exactly if none is on a page. -/
theorem count_breaks_iff (r : Report) :
    (linesOf r.markdown).count "---" = 6 ↔ ∀ page ∈ r.pages, Unbroken page := by
  have hmap : (r.pages.flatMap fun page => "---" :: "" :: page.flatMap linesOf) =
      (r.pages.map fun page => page.flatMap linesOf).flatMap fun page => "---" :: "" :: page := by
    rw [List.flatMap_map]
  have hlength : (r.pages.map fun page => page.flatMap linesOf).length = 6 := rfl
  rw [linesOf_markdown, List.count_cons_of_ne (by decide), List.count_cons_of_ne (by decide), hmap,
    count_break_flatMap, hlength, Nat.add_eq_left, List.count_eq_zero]
  simp only [List.mem_flatten, List.mem_map, not_exists, not_and, Unbroken, and_imp,
    forall_exists_index, forall_apply_eq_imp_iff₂, List.mem_flatMap]

/-- With its tables intact, no page of a document has a break exactly if no text has one. -/
theorem unbroken_pages_iff (h : s.KeepsRows) :
    (∀ page ∈ s.report.pages, Unbroken page) ↔ s.KeepsPages := by
  simp only [Report.pages, List.forall_mem_cons, List.not_mem_nil, false_implies, implies_true,
    and_true, Overview.unbroken_page, unbroken_capacityPage h, true_and,
    unbroken_entitiesPage_iff h, unbroken_relationshipsPage_iff, unbroken_securityPage_iff h,
    unbroken_indexesPage_iff h]
  constructor
  · rintro ⟨hmodels, hrelationships, hroles, hindexes⟩
    exact {
      models := hmodels
      relationships := fun e he r hr =>
        (hrelationships e he (List.ne_nil_of_mem hr)).2 r hr
      indexes := hindexes
      roles := fun r hr => (hroles r hr).1
      permissions := fun r hr => (hroles r hr).2 }
  · exact fun hkeeps => ⟨hkeeps.models, fun e he _ => ⟨hkeeps.models e he,
      hkeeps.relationships e he⟩, fun r hr => ⟨hkeeps.roles r hr, hkeeps.permissions r hr⟩,
      hkeeps.indexes⟩

/-- **Pages and tables.** The document of a schema has its structure exactly if no text in a table
has a line feed, and no other text has a break. -/
theorem structured_report_iff (s : Schema) :
    s.report.Structured ↔ s.KeepsRows ∧ s.KeepsPages := by
  constructor
  · intro h
    have hrows := (intact_tables_iff s).mp fun table htable => (h.tables table htable).1
    exact ⟨hrows, (unbroken_pages_iff hrows).mp ((count_breaks_iff _).mp h.count_breaks)⟩
  · rintro ⟨hrows, hpages⟩
    have hunbroken := (unbroken_pages_iff hrows).mpr hpages
    refine {
      count_breaks := (count_breaks_iff _).mpr hunbroken
      pages := ⟨s.report.pages.map fun page => page.flatMap linesOf, ?_, ?_, ?_⟩
      tables := fun table htable =>
        ⟨(intact_tables_iff s).mpr hrows table htable, infix_of_mem_tables htable⟩ }
    · rw [linesOf_markdown, List.flatMap_map]
    · rw [List.map_map]
      exact head?_pages s.report
    · refine List.forall_mem_map.mpr fun page hpage hbreak => ?_
      obtain ⟨line, hline, hbreak⟩ := List.mem_flatMap.mp hbreak
      exact hunbroken page hpage line hline hbreak

/-- A document with a default of two lines, and with a role in which a break stands between two
others. -/
def brokenDocument : Value :=
  .map
    [(.text "entities", .list [.map
      [(.text "name", .text "Note"), (.text "fields", .list [.map
        [(.text "name", .text "body"), (.text "default", .text "first\nsecond")]])]]),
     (.text "roles", .list [.map [(.text "role", .text "reader\n---\nwriter")]])]

/-- The schema of the document. -/
def brokenSchema : Schema where
  entities :=
    [{ name := "Note", fields := [{ name := "body", default := .text "first\nsecond" }] }]
  roles := [{ role := "reader\n---\nwriter" }]

/-- The document is a schema without violations. Its report has not six breaks, and it has a table
with four lines for one row. -/
theorem brokenReport_not_structured :
    Schema.ofValue brokenDocument = .ok brokenSchema ∧ brokenSchema.violations = [] ∧
      (linesOf brokenSchema.report.markdown).count "---" ≠ 6 ∧
      (fieldHeader, [["body", "text", "", "first\nsecond"]]) ∈ brokenSchema.report.tables ∧
      (linesOf (joinLines (Table.lines fieldHeader
        [["body", "text", "", "first\nsecond"]]))).length = 4 ∧
      ¬ brokenSchema.report.Structured := by
  have hvalue : Schema.ofValue brokenDocument = .ok brokenSchema := by rfl
  have hviolations : brokenSchema.violations = [] := by rfl
  have hcount : (linesOf brokenSchema.report.markdown).count "---" ≠ 6 := by
    intro hsix
    have hpage := (count_breaks_iff _).mp hsix brokenSchema.report.securityPage
      (by simp [Report.pages])
    have hline : "- **reader\n---\nwriter**: standard permissions" ∈
        brokenSchema.report.securityPage := by decide +kernel
    exact hpage _ hline (by decide +kernel)
  have htable : (fieldHeader, [["body", "text", "", "first\nsecond"]]) ∈
      brokenSchema.report.tables :=
    List.mem_append_left _ (List.mem_append_left _ (List.mem_singleton.mpr rfl))
  have hlines : (linesOf (joinLines (Table.lines fieldHeader
      [["body", "text", "", "first\nsecond"]]))).length = 4 := by
    rw [Table.linesOf_lines]
    decide +kernel
  exact ⟨hvalue, hviolations, hcount, htable, hlines, fun h => hcount h.count_breaks⟩

end DocSchema
