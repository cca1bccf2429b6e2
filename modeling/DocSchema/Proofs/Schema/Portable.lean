import DocSchema.Proofs.Yaml.PortableJson

/-!
# Schemas written in JSON

A schema text in portable JSON means what JSON says: its schema is the one of the value that a
decoder for JSON gives. Not all JSON is portable, and a tab between two tokens is enough for a
schema to be refused.

## Main results

* `ofText_eq_ofValue_of_portable`
* `tabbed_refused`: a text with tabs
-/

namespace DocSchema

open Json.Grammar (IsDigits)
open Json.Portable (IsCharacter IsElement IsItems IsMember IsNumber IsString TakesElement TakesValue
  isBody_of_plain takesValue_emptyList)

-- Decisions about the members of a list go through the list and not through all characters.
attribute [local instance (2000)] List.decidableBAll

/-- **A portable text has the schema of its JSON value.** -/
theorem ofText_eq_ofValue_of_portable {text : String} {members : List (String × Json)}
    (h : IsElement text.toList (.object members)) :
    Json.IsText text ∧ Json.read? text = some (.object members) ∧
      Schema.ofText text =
        (Schema.ofValue (Json.toValue (.object members))).mapError .content := by
  refine ⟨h.isElement, h.read?_eq, ?_⟩
  rw [Schema.ofText, Yaml.read_of_portable h]
  rfl

/-- A document with a number and an escape, laid out over several lines. -/
def portableText : String := "\x7b\"entities\" :\n [ -1.5e+3, \"\\u0041\" ]\r\n\x7d\n"

/-- The items of the document. -/
def portableItems : List Json := [.float (Number.Binary64.ofDecimal true 15 2), .text "A"]

theorem isElement_portableText :
    IsElement portableText.toList (.object [("entities", .list portableItems)]) := by
  have hkey : IsString ('"' :: ("entities".toList ++ ['"'])) "entities" :=
    .quoted (isBody_of_plain (by decide))
  have hdigit : ∀ d ∈ ['1', '3', '5'], IsDigits [d] := fun d hd => by
    refine ⟨List.cons_ne_nil _ _, fun c hc => ?_⟩
    rw [List.mem_singleton.mp hc]
    exact (by decide : ∀ d ∈ ['1', '3', '5'], d.isDigit = true) d hd
  have hnumber : IsNumber "-1.5e+3".toList (.float (Number.Binary64.ofDecimal true 15 2)) :=
    .float true (.digits (hdigit '1' (by decide)) (by decide)) (hdigit '5' (by decide))
      (.positive (by decide) (hdigit '3' (by decide)))
  have hstring : IsString "\"\\u0041\"".toList "A" :=
    .quoted (.cons (@IsCharacter.unit '0' '0' '4' '1' 65 rfl (by decide)) .nil)
  have hitems : IsItems " -1.5e+3, \"\\u0041\" ".toList portableItems :=
    .more (@IsElement.spaced [' '] _ [] _ (by decide) (.number hnumber) (by decide))
      (.last (@IsElement.spaced [' '] _ [' '] _ (by decide) (.string hstring) (by decide)))
  have hmember := @IsMember.spaced [] _ [' '] _ _ _ (by decide) hkey (by decide) (by decide)
    (@IsElement.spaced ['\n', ' '] _ ['\r', '\n'] _ (by decide) (.list hitems) (by decide))
  exact @IsElement.spaced [] _ ['\n'] _ (by decide) (.object (.last hmember)) (by decide)

/-- The document is read as its JSON value, which is no schema. -/
theorem portableText_same :
    IsElement portableText.toList (.object [("entities", .list portableItems)]) ∧
      Json.IsText portableText ∧
      Json.read? portableText = some (.object [("entities", .list portableItems)]) ∧
      Schema.ofText portableText =
        (Schema.ofValue (Json.toValue (.object [("entities", .list portableItems)]))).mapError
          .content :=
  ⟨isElement_portableText, ofText_eq_ofValue_of_portable isElement_portableText⟩

/-- The text of a schema without entities, indented by a tab. -/
def tabbedText : String := "\x7b\n\t\"entities\": []\n\x7d"

theorem isSpace_tab : ∀ cs ∈ [[], [' '], ['\n'], ['\n', '\t']], Json.Grammar.IsSpace cs := by
  unfold Json.Grammar.IsSpace
  decide

theorem isText_tabbedText : Json.IsText tabbedText := by
  have hmember := @Json.Grammar.IsMember.spaced ['\n', '\t'] _ [] _ (isSpace_tab _ (by decide))
    (Json.isString_textChars "entities") (isSpace_tab _ (by decide))
    (@Json.Grammar.IsElement.spaced [' '] _ ['\n'] (isSpace_tab _ (by decide))
      (.emptyList (isSpace_tab [] (by decide))) (isSpace_tab _ (by decide)))
  exact @Json.Grammar.IsElement.spaced [] _ [] (isSpace_tab _ (by decide)) (.object (.last hmember))
    (isSpace_tab _ (by decide))

theorem read?_tabbedText : Json.read? tabbedText = some (.object [("entities", .list [])]) := by
  have hlist := @TakesValue.element [' '] _ ['\n'] _
    (takesValue_emptyList (isSpace_tab [] (by decide))) ⟨'[', _, rfl, by decide⟩
    (isSpace_tab _ (by decide)) (isSpace_tab _ (by decide))
  have hkey : IsString ('"' :: ("entities".toList ++ ['"'])) "entities" :=
    .quoted (isBody_of_plain (by decide))
  have hmember := @TakesElement.member ['\n', '\t'] _ [] _ _ _ hlist (isSpace_tab _ (by decide)) hkey
    (isSpace_tab _ (by decide))
  exact @TakesValue.read?_eq tabbedText [] _ [] _ hmember.last.takesValue ⟨'\x7b', _, rfl, by decide⟩
    (isSpace_tab _ (by decide)) (isSpace_tab _ (by decide)) rfl

/-- **A tab between two tokens is JSON, and the schema is refused.** -/
theorem tabbed_refused :
    Json.IsText tabbedText ∧
      Json.read? tabbedText = some (.object [("entities", .list [])]) ∧
      Schema.ofValue (Json.toValue (.object [("entities", .list [])])) =
        .ok { entities := [], roles := [] } ∧
      Schema.ofText tabbedText = .error (.document (.problem .token)) := by
  have htokens : Yaml.tokens tabbedText = .error (.problem .token) := by decide +kernel
  refine ⟨isText_tabbedText, read?_tabbedText, rfl, ?_⟩
  rw [Schema.ofText, Yaml.read, htokens]
  rfl

end DocSchema
