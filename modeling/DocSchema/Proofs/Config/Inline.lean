import DocSchema.Proofs.Config.Loading
import DocSchema.Proofs.Yaml.Writer.Values

/-!
# Schemas inside a configuration

A configuration may hold its schema as a value instead of naming a file. The value is written as a
text, and the schema is read from that text as from any other. This module says when nothing is
lost on the way, and shows a key that is.

## Main definitions

* `HoldsSchema`: the text of a configuration that holds a value for its schema

## Main results

* `inlineSchema_same`: the stored text is read to the value, and gives the schema of the value
* `longKey_lost`: the stored text of a mapping with a long key is refused
-/

namespace DocSchema

open Json.Grammar (IsWhole)
open Json.Portable (IsElement IsMember IsString IsValue isBody_of_plain)
open Yaml (isBreak isPermitted)
open Yaml.Writer (Kept keepsEntryKey_of_length_le keepsText_of_lt)

-- Decisions about the members of a list go through the list and not through all characters.
attribute [local instance (2000)] List.decidableBAll

/-! ## Values in a document -/

/-- A value under a key is the second half of an entry. -/
theorem Value.exists_mem_of_lookup {key : String} {entries : List (Value × Value)} {v : Value}
    (h : lookup key entries = some v) : ∃ e ∈ entries, e.2 = v := by
  fun_induction lookup key entries with
  | case1 => cases h
  | case2 u rest =>
    cases h
    exact ⟨_, List.mem_cons_self, rfl⟩
  | case3 k u rest _ ih | case4 e rest _ ih =>
    obtain ⟨found, hmem, hv⟩ := ih h
    exact ⟨found, List.mem_cons_of_mem _ hmem, hv⟩

theorem Value.Proper.of_lookup {key : String} {entries : List (Value × Value)} {v : Value}
    (hproper : (Value.map entries).Proper) (h : lookup key entries = some v) : v.Proper := by
  obtain ⟨e, hmem, rfl⟩ := exists_mem_of_lookup h
  cases hproper with
  | map _ _ hvalues => exact hvalues e hmem

/-- The text of a configuration holds a value for its schema: not a text, which is taken as it is,
and without a path. -/
structure HoldsSchema (text : String) (entries : Entries) (v : Value) : Prop where
  /-- The section of the schema has these entries. -/
  section_eq : ∃ value document, Yaml.read text = .ok value ∧ configEntries value = .ok document ∧
    requiredSection document .schema = .ok entries
  given : Setting.schemaInline.given? entries = some v
  noPath : Setting.schemaPath.given? entries = none
  notText : ∀ s, v ≠ .text s

namespace HoldsSchema

variable {text : String} {entries : Entries} {v : Value}

theorem value? (h : HoldsSchema text entries v) :
    Setting.schemaInline.value? entries = some v ∧ v.isTruthy = true :=
  Option.filter_eq_some_iff.mp h.given

/-- What is held is part of a document. -/
theorem proper (h : HoldsSchema text entries v) : v.Proper := by
  obtain ⟨value, document, hread, hdocument, hsection⟩ := h.section_eq
  have hproper := Yaml.proper_of_read hread
  cases value with
  | null =>
    cases hdocument
    cases hsection
  | map all =>
    cases hdocument
    rw [requiredSection] at hsection
    split at hsection
    · next hlookup =>
      cases hsection
      exact (hproper.of_lookup hlookup).of_lookup h.value?.1
    · cases hsection
  | _ => cases hdocument

theorem load_eq (h : HoldsSchema text entries v) (w : Workspace) (base : Path) :
    SchemaSource.load w base entries = .ok { text := Yaml.write v, file := none } := by
  rw [SchemaSource.load, h.given, h.noPath]
  have htext := h.notText
  cases v with
  | text s => exact absurd rfl (htext s)
  | _ => rfl

theorem schema_of_load (h : HoldsSchema text entries v) {w : Workspace} {path : Path}
    {c : Configuration} (htext : w.readText path = .ok text)
    (hload : Configuration.load w path = .ok c) :
    c.schema = { text := Yaml.write v, file := none } := by
  obtain ⟨value, document, hread, hdocument, hsection⟩ := h.section_eq
  rw [Configuration.load_eq, Workspace.textOr_eq_ok_iff.mpr htext, Except.ok_bind,
    Configuration.readConfigDocument_eq_ok_iff.mpr hread, Except.ok_bind, hdocument] at hload
  obtain ⟨all, hall, hschema⟩ := Configuration.schema_of_ofEntries hload
  cases hsection.symm.trans hall
  rw [h.load_eq] at hschema
  exact (Except.ok.inj hschema).symm

end HoldsSchema

/-! ## Schemas in JSON -/

/-- The text of an object of one member, without white space. -/
def singleText (key : String) (cs : List Char) : List Char :=
  '\x7b' :: (('"' :: (key.toList ++ ['"'])) ++ ':' :: cs ++ ['\x7d'])

theorem isElement_single {key : String} {cs : List Char} {j : Json}
    (hkey : ∀ c ∈ key.toList,
      32 ≤ c.toNat ∧ c ≠ '"' ∧ c ≠ '\\' ∧ isPermitted c = true ∧ isBreak c = false)
    (hlength : key.length ≤ 1022) (h : IsElement cs j) :
    IsElement (singleText key cs) (.object [(key, j)]) := by
  have hstring := IsString.quoted (isBody_of_plain hkey)
  rw [String.ofList_toList] at hstring
  have hmember := @IsMember.spaced [] _ [] _ _ _ (List.forall_mem_nil _) hstring
    (List.forall_mem_nil _) (by
      rw [List.length_cons, List.length_append, List.length_singleton, String.length_toList,
        List.length_nil]
      omega) h
  have hobject := @IsElement.spaced [] _ [] _ (List.forall_mem_nil _) (.object (.last hmember))
    (List.forall_mem_nil _)
  rw [List.nil_append, List.append_nil, List.nil_append, List.append_nil] at hobject
  exact hobject

/-- The text of a configuration with the text of a schema put into it. -/
def inlineText (schema : List Char) : String :=
  String.ofList (singleText "schema" (singleText "inline" schema))

/-- A schema in portable JSON is held by the configuration that it is put into. -/
theorem holdsSchema_inlineText {cs : List Char} {members : List (String × Json)}
    (h : IsElement cs (.object members)) (hmembers : members ≠ []) :
    HoldsSchema (inlineText cs) [(.text "inline", Json.toValue (.object members))]
      (Json.toValue (.object members)) := by
  have hwhole := @isElement_single "schema" _ _ (by decide) (by decide)
    (@isElement_single "inline" _ _ (by decide) (by decide) h)
  rw [← @String.toList_ofList (singleText "schema" (singleText "inline" cs))] at hwhole
  have htruthy : (Json.toValue (.object members)).isTruthy = true := by
    cases members with
    | nil => exact absurd rfl hmembers
    | cons => rfl
  refine ⟨⟨_, _, Yaml.read_of_portable hwhole, rfl, rfl⟩, ?_, rfl, ?_⟩
  · exact Option.filter_eq_some_iff.mpr ⟨rfl, htruthy⟩
  · rintro s ⟨⟩

/-! ## Writing and reading back -/

theorem Schema.ofText_of_read {text : String} {v : Value} (h : Yaml.read text = .ok v) :
    Schema.ofText text = (Schema.ofValue v).mapError .content := by
  rw [ofText, h]
  rfl

/-- **Schemas inside a configuration.** If nothing of a value is lost in writing, then the text that
is stored for it is read to the value itself, and it has the same schema, or the same fault. -/
theorem inlineSchema_same {text : String} {entries : Entries} {v : Value}
    (h : HoldsSchema text entries v) (hkept : Kept false 0 v) :
    (∀ w base, SchemaSource.load w base entries = .ok { text := Yaml.write v, file := none }) ∧
      (∀ w path c, w.readText path = .ok text → Configuration.load w path = .ok c →
        c.schema = { text := Yaml.write v, file := none }) ∧
      Yaml.read (Yaml.write v) = .ok v ∧
      Schema.ofText (Yaml.write v) = (Schema.ofValue v).mapError .content := by
  have hread : Yaml.read (Yaml.write v) = .ok v :=
    Yaml.Writer.read_write hkept h.proper h.value?.2 h.notText
  exact ⟨h.load_eq, fun _ _ _ htext hload => h.schema_of_load htext hload, hread,
    Schema.ofText_of_read hread⟩

/-- The text of a schema with an entity whose name looks like a number. -/
def twelveText : List Char :=
  singleText "entities" ('[' :: (singleText "name" ['"', '1', '2', '"'] ++ [']']))

/-- The value of the text. -/
def twelveValue : Value := .map [(.text "entities", .list [.map [(.text "name", .text "12")]])]

theorem isElement_twelveText :
    IsElement twelveText (.object [("entities", .list [.object [("name", .text "12")]])]) := by
  have hstring := IsString.quoted (isBody_of_plain (by decide : ∀ c ∈ "12".toList, _))
  have hname : IsElement ['"', '1', '2', '"'] (.text "12") :=
    @IsElement.spaced [] _ [] _ (List.forall_mem_nil _) (.string hstring) (List.forall_mem_nil _)
  have hlist := IsValue.list (.last (@isElement_single "name" _ _ (by decide) (by decide) hname))
  have helement := @IsElement.spaced [] _ [] _ (List.forall_mem_nil _) hlist (List.forall_mem_nil _)
  rw [List.nil_append, List.append_nil] at helement
  exact @isElement_single "entities" _ _ (by decide) (by decide) helement

theorem kept_twelveValue : Kept false 0 twelveValue := by
  have hname : Kept false 2 (.map [(.text "name", .text "12")]) :=
    .map (List.forall_mem_singleton.mpr (.text (keepsEntryKey_of_length_le (by decide) (by decide))))
      (List.forall_mem_singleton.mpr (.scalar (.text (keepsText_of_lt (by decide) _))))
  refine .map
    (List.forall_mem_singleton.mpr (.text (keepsEntryKey_of_length_le (by decide) (by decide))))
    (List.forall_mem_singleton.mpr ?_)
  exact .flatList (List.forall_mem_singleton.mpr hname)

/-- The name is still a text in the schema that is read back. -/
theorem twelveValue_same :
    HoldsSchema (inlineText twelveText) [(.text "inline", twelveValue)] twelveValue ∧
      Kept false 0 twelveValue ∧
      (∀ w base, SchemaSource.load w base [(.text "inline", twelveValue)] =
        .ok { text := Yaml.write twelveValue, file := none }) ∧
      (∀ w path c, w.readText path = .ok (inlineText twelveText) →
        Configuration.load w path = .ok c →
        c.schema = { text := Yaml.write twelveValue, file := none }) ∧
      Yaml.read (Yaml.write twelveValue) = .ok twelveValue ∧
      Schema.ofText (Yaml.write twelveValue) = (Schema.ofValue twelveValue).mapError .content := by
  have hholds : HoldsSchema (inlineText twelveText) [(.text "inline", twelveValue)] twelveValue :=
    holdsSchema_inlineText isElement_twelveText (List.cons_ne_nil _ _)
  exact ⟨hholds, kept_twelveValue, inlineSchema_same hholds kept_twelveValue⟩

/-- A key of characters each of which is written with ten. -/
def smiles (n : Nat) : String := String.ofList (List.replicate n '😀')

/-- A mapping with a key of 110 such characters. A schema knows no such key, and passes over it. -/
def longKeyValue : Value := .map [(.text (smiles 110), .int 1)]

theorem length_smiles (n : Nat) : (smiles n).length = n := by
  rw [smiles, String.length_ofList, List.length_replicate]

theorem toList_smiles (n : Nat) : (smiles n).toList = List.replicate n '😀' :=
  String.toList_ofList

theorem isElement_smiles {n : Nat} (hlength : n ≤ 1022) :
    IsElement (singleText (smiles n) ['1']) (.object [(smiles n, .int 1)]) := by
  have hdigits : IsWhole ['1'] :=
    .digits ⟨List.cons_ne_nil _ _, List.forall_mem_singleton.mpr rfl⟩ (by decide)
  have hone : IsElement ['1'] (.int 1) :=
    @IsElement.spaced [] _ [] _ (List.forall_mem_nil _)
      (.number (.int false hdigits (by decide))) (List.forall_mem_nil _)
  refine isElement_single (fun c hc => ?_) ?_ hone
  · rw [toList_smiles] at hc
    rw [List.eq_of_mem_replicate hc]
    decide
  · rwa [length_smiles]

/-- A mapping of one key that means nothing to a schema is the schema without entities. -/
theorem Schema.ofValue_unknownKey {key : String} {v : Value}
    (h : key ∉ ["entities", "dataModels", "roles", "userRoles"]) :
    Schema.ofValue (.map [(.text key, v)]) = .ok { entities := [], roles := [] } := by
  have hget : ∀ k ∈ ["entities", "dataModels", "roles", "userRoles"],
      Entries.get [(.text key, v)] k = .null := by
    intro k hk
    rw [Entries.get, Value.lookup, if_neg (ne_of_mem_of_not_mem hk h).symm]
    rfl
  rw [ofValue, readRoot, Except.ok_bind, Entries.firstPresent, Entries.firstPresent,
    hget "entities" (by decide), hget "dataModels" (by decide), hget "roles" (by decide),
    hget "userRoles" (by decide)]
  rfl

/-- **A long key is lost.** The configuration holds the mapping, of which there is a schema, and the
text that is stored for it is refused. -/
theorem longKey_lost :
    HoldsSchema (inlineText (singleText (smiles 110) ['1'])) [(.text "inline", longKeyValue)]
        longKeyValue ∧
      SchemaSource.load { current := [], entries := [] } ⟨.root, []⟩
        [(.text "inline", longKeyValue)] = .ok { text := Yaml.write longKeyValue, file := none } ∧
      Schema.ofValue longKeyValue = .ok { entities := [], roles := [] } ∧
      Schema.ofText (Yaml.write longKeyValue) = .error (.document (.problem .misplacedValue)) := by
  have hholds : HoldsSchema (inlineText (singleText (smiles 110) ['1']))
      [(.text "inline", longKeyValue)] longKeyValue :=
    holdsSchema_inlineText (isElement_smiles (by decide)) (List.cons_ne_nil _ _)
  have hkept : Kept true 2 (.int 1) := .scalar (.int (by decide))
  have hchars : (Yaml.Writer.textScalar (smiles 110)).text.toList = List.replicate 110 '😀' :=
    toList_smiles 110
  have hsimple : (Yaml.Writer.textScalar (smiles 110)).isSimpleKey = true := by
    rw [Yaml.WrittenScalar.isSimpleKey, hchars]
    decide +kernel
  have hstyle : (Yaml.Writer.textScalar (smiles 110)).style true = .double := by
    have hplain : Yaml.canBePlain (List.replicate 110 '😀') = false := by decide +kernel
    have hsingle : Yaml.canBeSingle (List.replicate 110 '😀') = false := by decide +kernel
    rw [Yaml.WrittenScalar.style, hchars, hplain, hsingle, Bool.and_false]
    rfl
  have hlong : 1022 < ((smiles 110).toList.flatMap Yaml.spelled).length := by
    rw [toList_smiles]
    decide +kernel
  have hread : Yaml.read (Yaml.write longKeyValue) = .error (.problem .misplacedValue) :=
    Yaml.Writer.read_write_longKey hsimple hstyle hlong hkept (.int 1)
  refine ⟨hholds, hholds.load_eq _ _, Schema.ofValue_unknownKey fun hmem => ?_, ?_⟩
  · have hlengths : ∀ key ∈ ["entities", "dataModels", "roles", "userRoles"], key.length ≠ 110 := by
      decide
    exact hlengths _ hmem (length_smiles 110)
  · rw [Schema.ofText, hread]
    rfl

end DocSchema
