import DocSchema.Proofs.Config.Loading
import DocSchema.Proofs.Workspace.Edit

/-!
# Sections that say nothing

Of the sections of a configuration only that of the schema is required. Another section says nothing
if it is removed, null or an empty mapping, and it does not matter which of these it is. The
configuration that is read can still differ, for the file of the schema may be the file of the
configuration itself: its text is not the same when a section is removed from it.

## Main definitions

* `Silenced`: a document with a section that says nothing
* `Configuration.DocumentAt`: the document in the file of a configuration

## Main results

* `Configuration.ofEntries_eq_of_silenced`: documents with the same silent section
* `Configuration.load_put_of_silenced`: files with such documents
-/

namespace DocSchema

/-! ## Values under text keys -/

namespace Value

variable {key other : String} {v : Value} {entries : List (Value × Value)}

theorem sameKey_text_iff {k : Value} : sameKey k (.text key) = true ↔ k = .text key := by
  cases k with
  | float x => cases hx : x.toInt? <;> simp [sameKey, sameScalar, toInt?, hx]
  | _ => simp [sameKey, sameScalar, toInt?]

theorem lookup_cons (key : String) (k v : Value) (rest : List (Value × Value)) :
    lookup key ((k, v) :: rest) = if sameKey k (.text key) then some v else lookup key rest := by
  cases k with
  | text s => simp only [lookup, sameKey_text_iff, text.injEq]
  | _ => rw [lookup, if_neg (by rw [sameKey_text_iff]; nofun)]; nofun

/-- Different texts are different keys. -/
theorem sameKey_text_of_ne (h : other ≠ key) {k : Value} (hk : sameKey k (.text key) = true) :
    sameKey k (.text other) = false := by
  rw [sameKey_text_iff] at hk
  rw [Bool.eq_false_iff, ne_eq, sameKey_text_iff, hk, text.injEq]
  exact h.symm

theorem lookup_put_self :
    lookup key (Assoc.put sameKey (.text key) v entries) = some v := by
  induction entries with
  | nil => rw [Assoc.put, lookup_cons, if_pos (sameKey_text_iff.mpr rfl)]
  | cons entry rest ih =>
    obtain ⟨k, u⟩ := entry
    rw [Assoc.put]
    split
    · next hk => rw [lookup_cons, if_pos hk]
    · next hk => rw [lookup_cons, if_neg hk, ih]

theorem lookup_put_of_ne (h : other ≠ key) :
    lookup other (Assoc.put sameKey (.text key) v entries) = lookup other entries := by
  induction entries with
  | nil =>
    rw [Assoc.put, lookup_cons, sameKey_text_of_ne h (sameKey_text_iff.mpr rfl)]
    rfl
  | cons entry rest ih =>
    obtain ⟨k, u⟩ := entry
    rw [Assoc.put]
    split
    · next hk =>
      rw [lookup_cons, lookup_cons, sameKey_text_of_ne h hk]
      rfl
    · rw [lookup_cons, lookup_cons, ih]

/-- A list without the entries under a text key. -/
def without (key : String) (entries : List (Value × Value)) : List (Value × Value) :=
  entries.filter fun e => !sameKey e.1 (.text key)

theorem lookup_without_self : lookup key (without key entries) = none := by
  induction entries with
  | nil => rfl
  | cons entry rest ih =>
    obtain ⟨k, u⟩ := entry
    rw [without, List.filter_cons]
    cases hk : sameKey k (.text key) with
    | true => exact ih
    | false =>
      rw [Bool.not_false, if_pos rfl, lookup_cons, hk]
      exact ih

theorem lookup_without_of_ne (h : other ≠ key) :
    lookup other (without key entries) = lookup other entries := by
  induction entries with
  | nil => rfl
  | cons entry rest ih =>
    obtain ⟨k, u⟩ := entry
    rw [without, List.filter_cons, lookup_cons]
    cases hk : sameKey k (.text key) with
    | true =>
      rw [sameKey_text_of_ne h hk]
      exact ih
    | false =>
      rw [Bool.not_false, if_pos rfl, lookup_cons]
      exact congrArg _ ih

end Value

/-! ## Documents -/

/-- A section of a document is made to say nothing: it is removed, or its value becomes null or an
empty mapping. -/
inductive Silenced (part : Section) (document : Entries) : Entries → Prop
  | removed : Silenced part document (Value.without part.name document)
  | null : Silenced part document (Assoc.put Value.sameKey (.text part.name) .null document)
  | empty : Silenced part document (Assoc.put Value.sameKey (.text part.name) (.map []) document)

namespace Silenced

variable {part other : Section} {document after : Entries}

theorem optionalSection_self (h : Silenced part document after) :
    optionalSection after part = .ok [] := by
  rw [optionalSection]
  cases h with
  | removed => rw [Value.lookup_without_self]
  | null | empty => rw [Value.lookup_put_self]

theorem lookup_of_ne (h : Silenced part document after) (hother : other ≠ part) :
    Value.lookup other.name after = Value.lookup other.name document := by
  have hname : other.name ≠ part.name := by
    cases other <;> cases part <;> first | exact absurd rfl hother | decide
  cases h with
  | removed => exact Value.lookup_without_of_ne hname
  | null | empty => exact Value.lookup_put_of_ne hname

theorem requiredSection_of_ne (h : Silenced part document after) (hother : other ≠ part) :
    requiredSection after other = requiredSection document other := by
  rw [requiredSection, requiredSection, h.lookup_of_ne hother]

/-- However a section is silenced, all sections are read alike. -/
theorem optionalSection_eq {first second : Entries} (hfirst : Silenced part document first)
    (hsecond : Silenced part document second) (other : Section) :
    optionalSection second other = optionalSection first other := by
  by_cases hother : other = part
  · rw [hother, hfirst.optionalSection_self, hsecond.optionalSection_self]
  · rw [optionalSection, optionalSection, hfirst.lookup_of_ne hother, hsecond.lookup_of_ne hother]

end Silenced

/-! ## Workspaces -/

/-- The text of a schema depends on the file that the section names, and on nothing else in the
workspace. -/
theorem SchemaSource.load_congr {w after : Workspace} {base : Path} {entries : Entries}
    (hcurrent : after.current = w.current)
    (hread : ∀ file, NamesFile w.current base entries file → after.read file = w.read file) :
    load after base entries = load w base entries := by
  rw [load, load]
  split
  case h_3 raw hinline hpath =>
    rw [hcurrent]
    split
    · rfl
    · next hraw =>
      rw [ofFile_eq, ofFile_eq, Workspace.textOr_eq, Workspace.textOr_eq,
        hread _ ⟨hinline, raw, hpath, hraw, rfl⟩]
  all_goals rfl

namespace Workspace

variable {w : Workspace} {l : Location} {old new : Content}

/-- Another content of a file opens and closes no ways. -/
theorem walk_put_file (h : w.find? l = some (.file old)) (start : Location) (names : List String) :
    (w.put l (.file new)).walk start names = w.walk start names := by
  have hroot : l ≠ [] := by
    rintro rfl
    cases h
  induction names generalizing start with
  | nil => rfl
  | cons name rest ih =>
    rw [walk, walk]
    by_cases hstart : start = l
    · rw [hstart, find?_put_self hroot, h]
    · rw [find?_put_of_ne hstart]
      split <;> try rfl
      rw [ih]

theorem locate_put_file (h : w.find? l = some (.file old)) (p : Path) :
    (w.put l (.file new)).locate p = w.locate p :=
  walk_put_file h _ _

/-- Another content of a file is seen at the ends of the paths to this file only. -/
theorem read_put_file_of_ne (h : w.find? l = some (.file old)) {p : Path}
    (hp : w.locate p ≠ .ok l) : (w.put l (.file new)).read p = w.read p := by
  rw [read, read, read?, read?, locate_put_file h]
  cases hplace : w.locate p with
  | error fault => rfl
  | ok place =>
    have hne : place ≠ l := by
      rintro rfl
      exact hp hplace
    simp only [Except.map, find?_put_of_ne hne]

end Workspace

/-! ## Configurations -/

namespace Configuration

variable {w : Workspace} {path : Path} {part : Section} {document first second : Entries}

/-- The document in the file of a configuration. -/
def DocumentAt (w : Workspace) (path : Path) (document : Entries) : Prop :=
  ∃ text value, w.readText path = .ok text ∧ Yaml.read text = .ok value ∧
    configEntries value = .ok document

theorem load_of_documentAt (h : DocumentAt w path document) :
    load w path = ofEntries w path document := by
  obtain ⟨text, value, htext, hvalue, hdocument⟩ := h
  rw [load_eq, Workspace.textOr_eq_ok_iff.mpr htext, Except.ok_bind,
    readConfigDocument_eq_ok_iff.mpr hvalue, Except.ok_bind, hdocument]
  rfl

/-- A configuration is that of the document in its file. -/
theorem exists_documentAt_of_load {c : Configuration} (h : load w path = .ok c) :
    ∃ document, DocumentAt w path document ∧ ofEntries w path document = .ok c := by
  rw [load_eq] at h
  obtain ⟨text, htext, h⟩ := Except.bind_eq_ok_iff.mp h
  obtain ⟨value, hvalue, h⟩ := Except.bind_eq_ok_iff.mp h
  obtain ⟨document, hdocument, h⟩ := Except.bind_eq_ok_iff.mp h
  exact ⟨document, ⟨text, value, Workspace.textOr_eq_ok_iff.mp htext,
    readConfigDocument_eq_ok_iff.mp hvalue, Except.mapError_eq_ok_iff.mp hdocument⟩, h⟩

/-- A configuration depends on what the sections of its document are, and on the file of the
schema. -/
theorem ofEntries_congr {after : Workspace} (hcurrent : after.current = w.current)
    (hrequired : requiredSection second .schema = requiredSection first .schema)
    (hoptional : ∀ other, optionalSection second other = optionalSection first other)
    (hread : ∀ entries file, requiredSection first .schema = .ok entries →
      SchemaSource.NamesFile w.current (path.resolve w.current).parent entries file →
        after.read file = w.read file) :
    ofEntries after path second = ofEntries w path first := by
  rw [ofEntries, ofEntries, hrequired, hoptional, hoptional, hoptional, hcurrent]
  cases hsection : requiredSection first .schema with
  | error fault => simp only [Except.mapError, bind, Except.bind]
  | ok entries =>
    have hschema : SchemaSource.load after (path.resolve w.current).parent entries =
        SchemaSource.load w (path.resolve w.current).parent entries :=
      SchemaSource.load_congr hcurrent fun file hfile => hread entries file hsection hfile
    simp only [Except.mapError, Except.ok_bind, hschema]

/-- **Sections that say nothing.** Apart from that of the schema, it makes no difference in a
document whether a section is removed, null or empty. -/
theorem ofEntries_eq_of_silenced (hpart : part ≠ .schema) (hfirst : Silenced part document first)
    (hsecond : Silenced part document second) (w : Workspace) (path : Path) :
    ofEntries w path second = ofEntries w path first := by
  refine ofEntries_congr rfl ?_ (hfirst.optionalSection_eq hsecond) fun _ _ _ _ => rfl
  rw [hfirst.requiredSection_of_ne hpart.symm, hsecond.requiredSection_of_ne hpart.symm]

/-- The same in the file of a configuration, unless it is also the file of the schema. -/
theorem load_put_of_silenced {content : Content} (hpart : part ≠ .schema)
    (hfirst : Silenced part document first) (hsecond : Silenced part document second)
    (hat : DocumentAt w path first)
    (hafter : DocumentAt (w.put (path.location w.current) (.file content)) path second)
    (hother : ∀ file, NamesSchemaFile w path file →
      file.location w.current ≠ path.location w.current) :
    load (w.put (path.location w.current) (.file content)) path = load w path := by
  rw [load_of_documentAt hat, load_of_documentAt hafter]
  obtain ⟨text, value, htext, hvalue, hdocument⟩ := hat
  obtain ⟨old, hold⟩ := Workspace.holds_of_readText htext
  refine ofEntries_congr rfl ?_ (hfirst.optionalSection_eq hsecond) ?_
  · rw [hfirst.requiredSection_of_ne hpart.symm, hsecond.requiredSection_of_ne hpart.symm]
  · intro entries file hentries hfile
    refine Workspace.read_put_file_of_ne hold fun hlocate => ?_
    exact hother file ⟨text, value, first, entries, htext, hvalue, hdocument, hentries, hfile⟩
      (Workspace.locate_eq_ok hlocate).symm

end Configuration

end DocSchema
