import DocSchema.Assoc
import DocSchema.Number.Spelling
import DocSchema.Text.Quoted

/-!
# JSON trees

JSON values with the members of an object in their order, and their written forms.

## Main definitions

* `Json`
* `Json.compact`: on one line, with a space behind each comma and colon
* `Json.pretty`: one item or member a line, indented by two columns a level
* `Json.sorted`: the members of every object in the order of their keys

## Implementation notes

Text is written as it is; only what the grammar asks for is escaped. Numbers that are not finite
have no JSON form and are written by name. The order of keys is that of their code points.
-/

namespace DocSchema

open Number (Binary64)

/-- A JSON value. -/
inductive Json
  | null
  | bool (b : Bool)
  | int (n : Int)
  | float (x : Binary64)
  | text (s : String)
  | list (items : List Json)
  | object (members : List (String × Json))
  deriving Inhabited, Repr

namespace Json

/-! ## Scalars -/

/-- One character of a JSON string. -/
def escapedChar (c : Char) : List Char :=
  if c = '"' then ['\\', '"']
  else if c = '\\' then ['\\', '\\']
  else if c = '\n' then ['\\', 'n']
  else if c = '\r' then ['\\', 'r']
  else if c = '\t' then ['\\', 't']
  else if c.toNat = 8 then ['\\', 'b']
  else if c.toNat = 12 then ['\\', 'f']
  else if c.toNat < 32 then '\\' :: 'u' :: Text.hexChars 4 c.toNat
  else [c]

/-- A JSON string. -/
def textChars (s : String) : List Char := '"' :: (s.toList.flatMap escapedChar ++ ['"'])

/-- The characters of an integer. -/
def intChars (n : Int) : List Char :=
  (if n < 0 then ['-'] else []) ++ Number.digitChars n.natAbs

/-- The characters of a number; the names of numbers that are not finite are no JSON. -/
def floatChars : Binary64 → List Char
  | .nan => "NaN".toList
  | .infinite negative => (if negative then ['-'] else []) ++ "Infinity".toList
  | x => x.chars

/-! ## One line -/

mutual

/-- The characters of a value on one line. -/
def compactChars : Json → List Char
  | null => "null".toList
  | bool b => if b then "true".toList else "false".toList
  | int n => intChars n
  | float x => floatChars x
  | text s => textChars s
  | list items => '[' :: (compactItems items ++ [']'])
  | object members => '\x7b' :: (compactMembers members ++ ['\x7d'])

/-- The items of a list on one line. -/
def compactItems : List Json → List Char
  | [] => []
  | [item] => compactChars item
  | item :: items => compactChars item ++ ',' :: ' ' :: compactItems items

/-- The members of an object on one line. -/
def compactMembers : List (String × Json) → List Char
  | [] => []
  | [(key, value)] => textChars key ++ ':' :: ' ' :: compactChars value
  | (key, value) :: members =>
    textChars key ++ ':' :: ' ' :: (compactChars value ++ ',' :: ' ' :: compactMembers members)

end

/-- A value on one line. -/
def compact (j : Json) : String := String.ofList j.compactChars

/-! ## Several lines -/

/-- A new line with the indentation of a level. -/
def newLine (level : Nat) : List Char := '\n' :: List.replicate (2 * level) ' '

mutual

/-- The characters of a value that starts on a line of the given level. -/
def prettyChars (level : Nat) : Json → List Char
  | list [] => ['[', ']']
  | list (item :: items) =>
    '[' :: (newLine (level + 1) ++ (prettyItems (level + 1) (item :: items)
      ++ (newLine level ++ [']'])))
  | object [] => ['\x7b', '\x7d']
  | object (member :: members) =>
    '\x7b' :: (newLine (level + 1) ++ (prettyMembers (level + 1) (member :: members)
      ++ (newLine level ++ ['\x7d'])))
  | null => "null".toList
  | bool b => if b then "true".toList else "false".toList
  | int n => intChars n
  | float x => floatChars x
  | text s => textChars s

/-- The items of a list, each on lines of its own. -/
def prettyItems (level : Nat) : List Json → List Char
  | [] => []
  | [item] => prettyChars level item
  | item :: items => prettyChars level item ++ ',' :: (newLine level ++ prettyItems level items)

/-- The members of an object, each on lines of its own. -/
def prettyMembers (level : Nat) : List (String × Json) → List Char
  | [] => []
  | [(key, value)] => textChars key ++ ':' :: ' ' :: prettyChars level value
  | (key, value) :: members =>
    textChars key ++ ':' :: ' ' :: (prettyChars level value
      ++ ',' :: (newLine level ++ prettyMembers level members))

end

/-- A value on several lines. -/
def pretty (j : Json) : String := String.ofList (j.prettyChars 0)

/-! ## Order of keys -/

/-- Puts a member in front of the first one with a greater key. -/
def insertMember (key : String) (value : Json) : List (String × Json) → List (String × Json)
  | [] => [(key, value)]
  | (k, v) :: rest =>
    if key < k then (key, value) :: (k, v) :: rest else (k, v) :: insertMember key value rest

mutual

/-- The value with the members of all its objects in the order of their keys. -/
def sorted : Json → Json
  | list items => list (sortedItems items)
  | object members => object (sortedMembers members)
  | j => j

/-- The items of a list, each sorted inside. -/
def sortedItems : List Json → List Json
  | [] => []
  | item :: items => sorted item :: sortedItems items

/-- The members of an object in the order of their keys, each sorted inside. -/
def sortedMembers : List (String × Json) → List (String × Json)
  | [] => []
  | (key, value) :: members => insertMember key (sorted value) (sortedMembers members)

end

end Json

end DocSchema
