/-!
# The grammar of JSON

Which texts are JSON. The grammar speaks of characters alone and knows nothing of how a value is
written or read, so that a writer can be held against it.

White space may stand on either side of a value and of a key. The grammar attaches it to these
instead of to the marks between them, which admits the same texts.

## Main definitions

* `Grammar.IsNumber`, `Grammar.IsString`
* `Grammar.IsValue`: a value, without white space around it
* `IsText`: a whole text
-/

namespace DocSchema.Json

namespace Grammar

/-- Any amount of white space. -/
def IsSpace (cs : List Char) : Prop := ∀ c ∈ cs, c ∈ [' ', '\t', '\n', '\r']

/-- One digit or more. -/
structure IsDigits (cs : List Char) : Prop where
  ne_nil : cs ≠ []
  isDigit : ∀ c ∈ cs, c.isDigit = true

/-! ## Numbers -/

/-- The digits in front of the point, which no zero leads. -/
inductive IsWhole : List Char → Prop
  | zero : IsWhole ['0']
  | digits {cs : List Char} : IsDigits cs → cs.head? ≠ some '0' → IsWhole cs

/-- The fraction of a number, if it has one. -/
inductive IsFraction : List Char → Prop
  | none : IsFraction []
  | digits {cs : List Char} : IsDigits cs → IsFraction ('.' :: cs)

/-- The exponent of a number, if it has one. -/
inductive IsExponent : List Char → Prop
  | none : IsExponent []
  | digits {mark : Char} {sign cs : List Char} : mark ∈ ['e', 'E'] → sign ∈ [[], ['+'], ['-']] →
    IsDigits cs → IsExponent (mark :: (sign ++ cs))

/-- A number. -/
inductive IsNumber : List Char → Prop
  | parts {sign whole fraction exponent : List Char} : sign ∈ [[], ['-']] → IsWhole whole →
    IsFraction fraction → IsExponent exponent → IsNumber (sign ++ whole ++ fraction ++ exponent)

/-! ## Strings -/

/-- The digits of a code unit. -/
def hexDigits : List Char := "0123456789abcdefABCDEF".toList

/-- One character of a string, as it is or as an escape. -/
inductive IsCharacter : List Char → Prop
  | plain {c : Char} : 32 ≤ c.toNat → c ≠ '"' → c ≠ '\\' → IsCharacter [c]
  | short {c : Char} : c ∈ ['"', '\\', '/', 'b', 'f', 'n', 'r', 't'] → IsCharacter ['\\', c]
  | unit {a b c d : Char} : a ∈ hexDigits → b ∈ hexDigits → c ∈ hexDigits → d ∈ hexDigits →
    IsCharacter ['\\', 'u', a, b, c, d]

/-- A string with its quotes. -/
inductive IsString : List Char → Prop
  | quoted {parts : List (List Char)} : (∀ part ∈ parts, IsCharacter part) →
    IsString ('"' :: (parts.flatten ++ ['"']))

/-! ## Values -/

mutual

/-- A value without white space around it. -/
inductive IsValue : List Char → Prop
  | null : IsValue "null".toList
  | true : IsValue "true".toList
  | false : IsValue "false".toList
  | number {cs : List Char} : IsNumber cs → IsValue cs
  | string {cs : List Char} : IsString cs → IsValue cs
  | emptyList {space : List Char} : IsSpace space → IsValue ('[' :: (space ++ [']']))
  | list {cs : List Char} : IsItems cs → IsValue ('[' :: (cs ++ [']']))
  | emptyObject {space : List Char} : IsSpace space → IsValue ('\x7b' :: (space ++ ['\x7d']))
  | object {cs : List Char} : IsMembers cs → IsValue ('\x7b' :: (cs ++ ['\x7d']))

/-- A value with white space around it. -/
inductive IsElement : List Char → Prop
  | spaced {before cs after : List Char} : IsSpace before → IsValue cs → IsSpace after →
    IsElement (before ++ cs ++ after)

/-- One item or more, with a comma between each two. -/
inductive IsItems : List Char → Prop
  | last {cs : List Char} : IsElement cs → IsItems cs
  | more {cs rest : List Char} : IsElement cs → IsItems rest → IsItems (cs ++ ',' :: rest)

/-- A key and its value, with white space around both. -/
inductive IsMember : List Char → Prop
  | spaced {before key after cs : List Char} : IsSpace before → IsString key → IsSpace after →
    IsElement cs → IsMember (before ++ key ++ after ++ ':' :: cs)

/-- One member or more, with a comma between each two. -/
inductive IsMembers : List Char → Prop
  | last {cs : List Char} : IsMember cs → IsMembers cs
  | more {cs rest : List Char} : IsMember cs → IsMembers rest → IsMembers (cs ++ ',' :: rest)

end

end Grammar

/-- A text is JSON. -/
def IsText (s : String) : Prop := Grammar.IsElement s.toList

end DocSchema.Json
