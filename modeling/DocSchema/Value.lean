import DocSchema.Assoc
import DocSchema.Calendar
import DocSchema.Number.Spelling
import DocSchema.Text.Quoted

/-!
# Document values

The values that a schema or configuration document consists of. A document has more kinds of
scalars than JSON, and its mappings may have keys of any kind that can be compared.

## Main definitions

* `Value`
* `Value.sameKey`: when two values are one key. Truth values count as the integers zero and one,
  and numbers are compared by value.
* `Value.mapping`: a mapping from entries, of which a later one replaces the value of an earlier
  one with the same key
* `Value.display`: the text of a value when it is used as a text; `Value.inspect` is its text
  inside another value
-/

namespace DocSchema

open Number (Binary64)

/-- A value of a document. -/
inductive Value
  | null
  | bool (b : Bool)
  | int (n : Int)
  | float (x : Binary64)
  | text (s : String)
  | date (d : Date)
  | datetime (t : DateTime)
  | bytes (content : List UInt8)
  | list (items : List Value)
  | tuple (items : List Value)
  | set (items : List Value)
  | map (entries : List (Value × Value))
  deriving Inhabited, Repr

namespace Value

/-! ## Keys -/

/-- The integer that a number or truth value is equal to. -/
def toInt? : Value → Option Int
  | bool b => some (if b then 1 else 0)
  | int n => some n
  | float x => x.toInt?
  | _ => none

/-- Equality of two scalars as keys. -/
def sameScalar (a b : Value) : Bool :=
  match a.toInt?, b.toInt? with
  | some m, some n => m == n
  | some _, none => false
  | none, some _ => false
  | none, none =>
    match a, b with
    | null, null => true
    | float x, float y => x.sameNumber y
    | text s, text t => s == t
    | date d, date e => d == e
    | datetime s, datetime t => s.sameTime t
    | bytes s, bytes t => s == t
    | _, _ => false

mutual

/-- Whether two values are the same key of a mapping. -/
def sameKey : Value → Value → Bool
  | tuple xs, tuple ys => sameKeys xs ys
  | tuple _, _ => false
  | a, b => sameScalar a b

/-- Whether two lists of values hold the same keys in the same order. -/
def sameKeys : List Value → List Value → Bool
  | [], [] => true
  | x :: xs, y :: ys => sameKey x y && sameKeys xs ys
  | _, _ => false

end

/-- Whether a value can be a key: everything but lists, sets and mappings. -/
def isKey : Value → Bool
  | list _ => false
  | set _ => false
  | map _ => false
  | _ => true

/-- The mapping of a list of entries. -/
def mapping (entries : List (Value × Value)) : Value := map (Assoc.ofList sameKey entries)

/-- The value under a text key. -/
def lookup (key : String) : List (Value × Value) → Option Value
  | [] => none
  | (text k, v) :: rest => if k = key then some v else lookup key rest
  | _ :: rest => lookup key rest

/-! ## Text -/

/-- A date as it is shown inside another value. -/
def inspectDate (d : Date) : String :=
  "datetime.date(" ++ toString d.year ++ ", " ++ toString d.month ++ ", " ++ toString d.day ++ ")"

/-- A zone as it is shown inside another value. -/
def inspectOffset (seconds : Int) : String :=
  if seconds = 0 then "datetime.timezone.utc"
  else "datetime.timezone(" ++ CalendarFault.offsetText seconds ++ ")"

/-- A date with a time as it is shown inside another value. Seconds that are zero are left out
unless a fraction follows, and so is a fraction that is zero. -/
def inspectDateTime (t : DateTime) : String :=
  let parts := [t.date.year, t.date.month, t.date.day, t.time.hour, t.time.minute]
    ++ (if t.time.second = 0 ∧ t.time.microsecond = 0 then [] else [t.time.second])
    ++ (if t.time.microsecond = 0 then [] else [t.time.microsecond])
  "datetime.datetime(" ++ ", ".intercalate (parts.map toString)
    ++ (match t.offset with
      | none => ""
      | some seconds => ", tzinfo=" ++ inspectOffset seconds)
    ++ ")"

mutual

/-- The text of a value inside another value. -/
def inspect : Value → String
  | null => "None"
  | bool b => if b then "True" else "False"
  | int n => toString n
  | float x => x.spelling
  | text s => Text.quoted s
  | date d => inspectDate d
  | datetime t => inspectDateTime t
  | bytes content => Text.quotedBytes content
  | list items => "[" ++ inspectItems items ++ "]"
  | tuple items =>
    match items with
    | [item] => "(" ++ inspect item ++ ",)"
    | items => "(" ++ inspectItems items ++ ")"
  | set items => if items.isEmpty then "set()" else "\x7b" ++ inspectItems items ++ "\x7d"
  | map entries => "\x7b" ++ inspectEntries entries ++ "\x7d"

/-- The texts of several values, with a comma between each two. -/
def inspectItems : List Value → String
  | [] => ""
  | [item] => inspect item
  | item :: items => inspect item ++ ", " ++ inspectItems items

/-- The texts of several entries, with a comma between each two. -/
def inspectEntries : List (Value × Value) → String
  | [] => ""
  | [(key, value)] => inspect key ++ ": " ++ inspect value
  | (key, value) :: entries =>
    inspect key ++ ": " ++ inspect value ++ ", " ++ inspectEntries entries

end

/-- The text of a value. -/
def display : Value → String
  | text s => s
  | date d => d.iso
  | datetime t => t.isoWith " "
  | value => inspect value

/-! ## Kinds -/

/-- The entries of a mapping. -/
def entries? : Value → Option (List (Value × Value))
  | map entries => some entries
  | _ => none

/-- The items of a list; bytes count as a list of integers. -/
def items? : Value → Option (List Value)
  | list items => some items
  | tuple items => some items
  | bytes content => some (content.map fun b => int b.toNat)
  | _ => none

/-- The text of a text or number. -/
def text? : Value → Option String
  | text s => some s
  | int n => some (toString n)
  | float x => some x.spelling
  | _ => none

/-- Whether a value counts as given: nothing, zero and what is empty do not. -/
def isTruthy : Value → Bool
  | null => false
  | bool b => b
  | int n => n != 0
  | float x => !x.isZero
  | text s => s != ""
  | date _ => true
  | datetime _ => true
  | bytes content => !content.isEmpty
  | list items => !items.isEmpty
  | tuple items => !items.isEmpty
  | set items => !items.isEmpty
  | map entries => !entries.isEmpty

end Value

end DocSchema
