import DocSchema.Access.Rules
import DocSchema.Proofs.Text.Lines
import DocSchema.Schema.Load
import DocSchema.Schema.Violation
import Mathlib.Data.List.Forall2

/-!
# The lines of a rules file

A rules file is meant to be a header, a block for every entity, and a footer, where a block has a
fixed number of lines: a comment that names the entity, the line that matches its collection, the
lines of its policy, a closing line and an empty one. Names of entities, collections and owner
fields are put into these lines as they are. This module says for which schemas the file has that
form.

## What a name may hold

Nothing is escaped, so a line feed in a name ends the line that the name stands in, and what
follows in the name is a line of its own. `WellLaidOut` looks at the text alone: it is taken apart
at its line feeds, and the parts have to be the expected ones. `wellLaidOut_rules_iff` says that it
holds exactly when no name that reaches the file has a line feed.

A schema without violations need not meet that condition. The checks ask whether a name is blank,
and a name with a line feed between other characters is not. `injected_rule` is such a schema, in
which the name of an entity brings a rule of its own into the file.

## Main definitions

* `Entity.IsBlock`, `WellLaidOut`: the form of a block, and of a file
* `Entity.OnOneLine`: the names of an entity have no line feed

## Main results

* `wellLaidOut_rules_iff`
* `injected_rule`
-/

namespace DocSchema

/-! ## The expected form -/

/-- The number of lines that a policy has in a block. -/
def AccessPolicy.lineCount : AccessPolicy → Nat
  | ownership _ => 4
  | userProfile => 5
  | standard => 3

/-- A line of a policy is a comment. -/
def IsComment (line : String) : Prop := "//".toList <+: line.toList

/-- The form of the block of an entity: the comment that names the entity, the line that matches
the collection, the lines of the policy, of which only the first is a comment, a closing line and
an empty line. -/
def Entity.IsBlock (e : Entity) (block : List String) : Prop :=
  ∃ comment allows,
    block = ["    // " ++ e.name ++ " collection",
        "    match /" ++ e.collection ++ "/\x7bdocId\x7d \x7b"]
      ++ (comment :: allows).map (fun line => "      " ++ line) ++ ["    \x7d", ""] ∧
    comment :: allows = e.policy.lines ∧ (comment :: allows).length = e.policy.lineCount ∧
    IsComment comment ∧ ∀ line ∈ allows, ¬ IsComment line

/-- The form of the rules file of a schema: between its line feeds are the header, a block for
every entity in order, and the footer, whose last line is ended too. -/
def WellLaidOut (s : Schema) : Prop :=
  ∃ blocks, Text.linesOf (rulesText s) = headerLines ++ blocks.flatten ++ footerLines ++ [""] ∧
    List.Forall₂ Entity.IsBlock s.entities blocks

/-- No name of an entity that reaches the rules file has a line feed. -/
structure Entity.OnOneLine (e : Entity) : Prop where
  name : '\n' ∉ e.name.toList
  collection : '\n' ∉ e.collection.toList
  /-- The owner field counts only where there is one. -/
  ownerField : ∀ field, e.policy.ownerField = some field → '\n' ∉ field.toList

/-! ## Line feeds in the written forms

Every text of a block is made of fixed parts and of names, so it has a line feed exactly when one
of its names has. The induction follows the condition, which is where an owner field may stand. -/

/-- The fields of the stored record that a reference names. -/
def Reference.fields : Reference → List String
  | .stored field => [field]
  | _ => []

/-- The fields of the stored record that a condition names. -/
def Condition.fields : Condition → List String
  | .uidEquals reference => reference.fields
  | .callWith _ reference => reference.fields
  | .both a b => a.fields ++ b.fields
  | .either a b => a.fields ++ b.fields
  | .grouped a => a.fields
  | _ => []

theorem Reference.newline_notMem_text_iff (reference : Reference) :
    '\n' ∉ reference.text.toList ↔ ∀ field ∈ reference.fields, '\n' ∉ field.toList := by
  cases reference with
  | argument => simp [text, fields]
  | docId => simp [text, fields]
  | stored field => simp [text, fields]

theorem Helper.newline_notMem_name (helper : Helper) : '\n' ∉ helper.name.toList := by
  cases helper <;> simp [name]

theorem Condition.newline_notMem_text_iff (c : Condition) :
    '\n' ∉ c.text.toList ↔ ∀ field ∈ c.fields, '\n' ∉ field.toList := by
  induction c with
  | signedIn =>
    change '\n' ∉ "request.auth != null".toList ↔ _
    simp [fields]
  | adminRole =>
    change '\n' ∉ "request.auth.token.role == 'admin'".toList ↔ _
    simp [fields]
  | uidEquals reference =>
    change '\n' ∉ ("request.auth.uid == " ++ reference.text).toList ↔ _
    simp [fields, ← reference.newline_notMem_text_iff]
  | roleKept =>
    change '\n' ∉ "request.resource.data.role == resource.data.role".toList ↔ _
    simp [fields]
  | call helper =>
    change '\n' ∉ (helper.name ++ "()").toList ↔ _
    simp [fields, helper.newline_notMem_name]
  | callWith helper reference =>
    change '\n' ∉ (helper.name ++ "(" ++ reference.text ++ ")").toList ↔ _
    simp [fields, helper.newline_notMem_name, ← reference.newline_notMem_text_iff]
  | both a b iha ihb =>
    change '\n' ∉ (a.text ++ " && " ++ b.text).toList ↔ _
    simp [fields, or_imp, forall_and, ← iha, ← ihb]
  | either a b iha ihb =>
    change '\n' ∉ (a.text ++ " || " ++ b.text).toList ↔ _
    simp [fields, or_imp, forall_and, ← iha, ← ihb]
  | grouped a ih =>
    change '\n' ∉ ("(" ++ a.text ++ ")").toList ↔ _
    simp [fields, ← ih]

theorem AllowLine.newline_notMem_text_iff (l : AllowLine) :
    '\n' ∉ l.text.toList ↔ ∀ field ∈ l.condition.fields, '\n' ∉ field.toList := by
  have hmethods : '\n' ∉ (", ".intercalate (l.methods.map Method.text)).toList := by
    refine Text.notMem_toList_intercalate (by simp) fun part hpart => ?_
    obtain ⟨method, -, rfl⟩ := List.mem_map.mp hpart
    cases method <;> simp [Method.text]
  simp only [text, Text.notMem_toList_append, l.condition.newline_notMem_text_iff, hmethods]
  simp

theorem AccessPolicy.newline_notMem_lines_iff (p : AccessPolicy) :
    (∀ line ∈ p.lines, '\n' ∉ line.toList) ↔
      ∀ field, p.ownerField = some field → '\n' ∉ field.toList := by
  have hcomment : '\n' ∉ p.comment.toList := by cases p <;> simp [comment]
  rw [lines, List.forall_mem_cons, List.forall_mem_map]
  simp only [hcomment, not_false_eq_true, true_and, AllowLine.newline_notMem_text_iff]
  cases p <;> simp [allowLines, Condition.fields, Reference.fields, ownerField]

/-! ## Blocks -/

theorem AccessPolicy.length_lines (p : AccessPolicy) : p.lines.length = p.lineCount := by
  cases p <;> rfl

theorem Entity.length_block (e : Entity) : e.block.length = e.policy.lineCount + 4 := by
  simp [block, AccessPolicy.length_lines]

/-- An allow line starts with its first word. -/
theorem AllowLine.not_isComment_text (l : AllowLine) : ¬ IsComment l.text := by
  simp [IsComment, text]

theorem AccessPolicy.isComment_comment (p : AccessPolicy) : IsComment p.comment := by
  cases p <;> simp [IsComment, comment]

theorem Entity.isBlock_block (e : Entity) : e.IsBlock e.block := by
  refine ⟨e.policy.comment, e.policy.allowLines.map AllowLine.text, rfl, rfl,
    e.policy.length_lines, e.policy.isComment_comment, fun line hline => ?_⟩
  obtain ⟨l, -, rfl⟩ := List.mem_map.mp hline
  exact l.not_isComment_text

/-- Every block of an entity has the same number of lines. -/
theorem Entity.IsBlock.length_eq {e : Entity} {block : List String} (h : e.IsBlock block) :
    block.length = e.block.length := by
  obtain ⟨comment, allows, rfl, hlines, -⟩ := h
  simp [Entity.block, ← hlines]

theorem length_flatten_of_isBlock {es : List Entity} {blocks : List (List String)}
    (h : List.Forall₂ Entity.IsBlock es blocks) :
    blocks.flatten.length = (es.flatMap Entity.block).length := by
  induction h with
  | nil => rfl
  | cons hblock _ ih =>
    rw [List.flatten_cons, List.flatMap_cons, List.length_append, List.length_append, ih,
      hblock.length_eq]

theorem Entity.newline_notMem_block_iff (e : Entity) :
    (∀ line ∈ e.block, '\n' ∉ line.toList) ↔ e.OnOneLine := by
  simp only [block, List.forall_mem_append, List.forall_mem_cons, List.forall_mem_map]
  constructor
  · rintro ⟨⟨⟨hname, hcollection, -⟩, hpolicy⟩, -⟩
    refine ⟨?_, ?_, ?_⟩
    · simpa using hname
    · simpa using hcollection
    · rw [← AccessPolicy.newline_notMem_lines_iff]
      exact fun line hline => (Text.notMem_toList_append.mp (hpolicy line hline)).2
  · rintro ⟨hname, hcollection, howner⟩
    have hpolicy := e.policy.newline_notMem_lines_iff.mpr howner
    refine ⟨⟨⟨by simpa using hname, by simpa using hcollection, by simp⟩, fun line hline => ?_⟩,
      by simp⟩
    exact Text.notMem_toList_append.mpr ⟨by simp, hpolicy line hline⟩

/-! ## Files -/

theorem Helper.newline_notMem_lines (h : Helper) : ∀ line ∈ h.lines, '\n' ∉ line.toList := by
  have hbody : '\n' ∉ h.body.text.toList := by
    rw [Condition.newline_notMem_text_iff]
    cases h <;> simp [body, Condition.fields, Reference.fields]
  have harguments : '\n' ∉ h.arguments.toList := by cases h <;> simp [arguments, Reference.text]
  simp [lines, h.newline_notMem_name, hbody, harguments]

theorem newline_notMem_headerLines : ∀ line ∈ headerLines, '\n' ∉ line.toList := by
  rw [headerLines, List.forall_mem_append]
  refine ⟨by simp, fun line hline => ?_⟩
  obtain ⟨h, -, hline⟩ := List.mem_flatMap.mp hline
  exact h.newline_notMem_lines line hline

theorem newline_notMem_rulesLines_iff (s : Schema) :
    (∀ line ∈ rulesLines s, '\n' ∉ line.toList) ↔ ∀ e ∈ s.entities, e.OnOneLine := by
  have hfooter : ∀ line ∈ footerLines, '\n' ∉ line.toList := by simp [footerLines]
  simp only [rulesLines, List.forall_mem_append, List.forall_mem_flatMap,
    Entity.newline_notMem_block_iff]
  exact ⟨fun h => h.1.2, fun h => ⟨⟨newline_notMem_headerLines, h⟩, hfooter⟩⟩

/-- Where no name has a line feed, the parts of the file are the lines that it was made of. -/
theorem wellLaidOut_of_onOneLine {s : Schema} (h : ∀ e ∈ s.entities, e.OnOneLine) :
    WellLaidOut s := by
  refine ⟨s.entities.map Entity.block, ?_, ?_⟩
  · rw [rulesText, Text.linesOf_unlines ((newline_notMem_rulesLines_iff s).mpr h), rulesLines,
      List.flatMap_def]
  · rw [List.forall₂_map_right_iff, List.forall₂_same]
    exact fun e _ => e.isBlock_block

/-- A file of the expected form has the expected number of lines, so no name ended a line. -/
theorem WellLaidOut.onOneLine {s : Schema} (h : WellLaidOut s) : ∀ e ∈ s.entities, e.OnOneLine := by
  obtain ⟨blocks, hlines, hblocks⟩ := h
  rw [← newline_notMem_rulesLines_iff, ← Text.length_linesOf_unlines_eq_iff, ← rulesText, hlines]
  simp only [rulesLines, List.length_append, length_flatten_of_isBlock hblocks,
    List.length_singleton]

/-- **When a rules file has its form.** The file of a schema is made of the header, one block of
the expected lines for each entity, and the footer, exactly when no name of an entity, no
collection and no owner field holds a line feed. -/
theorem wellLaidOut_rules_iff (s : Schema) : WellLaidOut s ↔ ∀ e ∈ s.entities, e.OnOneLine :=
  ⟨fun h => h.onOneLine, fun h => wellLaidOut_of_onOneLine h⟩

/-- A name that ends the comment in which it stands and goes on with a rule. -/
def injectingName : String :=
  "Note\n    match /\x7ball=**\x7d \x7b allow read, write: if true; \x7d\n    //"

/-- A document with one entity of that name. -/
def injectingDocument : Value :=
  .map [(.text "entities", .list [.map
    [(.text "name", .text injectingName), (.text "collectionName", .text "notes")]])]

/-- The document is a schema without violations, and its rules file has not the expected form. -/
theorem injected_rule :
    ∃ s, Schema.ofValue injectingDocument = .ok s ∧ s.violations = [] ∧ ¬ WellLaidOut s := by
  refine ⟨⟨[{ name := injectingName, collectionName := some "notes" }], []⟩, by rfl, by rfl,
    fun h => ?_⟩
  have hname := (h.onOneLine _ (List.mem_singleton.mpr rfl)).name
  simp [injectingName] at hname

end DocSchema
