import DocSchema.Yaml.Timestamp

/-!
# Tags

A tag says what kind of value a node denotes. A plain text without a tag gets one by its form.

## Main definitions

* `Tag`, `Tag.ofText`
* `Tag.ofPlain`: the tag of a plain text

## Implementation notes

The forms of numbers are those of version 1.1 of the language: a leading zero makes an integer
octal, colons separate digits of base sixty, underscores may stand among the digits, and a floating
point number needs a point, and a sign in its exponent.
-/

namespace DocSchema.Yaml

/-- The kind of value that a node denotes. -/
inductive Tag
  | null
  | bool
  | int
  | float
  | text
  | binary
  | timestamp
  | list
  | map
  | set
  /-- A list of mappings with one entry each. -/
  | pairs
  /-- The key that merges mappings into one. -/
  | merge
  /-- The key of the main value of a mapping. -/
  | mainValue
  | other (text : String)
  deriving DecidableEq, Inhabited, Repr

namespace Tag

/-- What all known tags open with. -/
def schemaText : String := "tag:yaml.org,2002:"

/-- The known tags, by what follows the common opening. -/
def known : List (String × Tag) :=
  [("null", null), ("bool", bool), ("int", int), ("float", float), ("str", text),
   ("binary", binary), ("timestamp", timestamp), ("seq", list), ("map", map), ("set", set),
   ("omap", pairs), ("pairs", pairs), ("merge", merge), ("value", mainValue)]

/-- The tag with a given text. -/
def ofText (full : String) : Tag :=
  match known.find? fun entry => schemaText ++ entry.1 == full with
  | some entry => entry.2
  | none => other full

/-! ## Forms of plain texts -/

/-- The spellings of truth values. -/
def boolTexts : List String :=
  ["yes", "Yes", "YES", "no", "No", "NO", "true", "True", "TRUE", "false", "False", "FALSE",
   "on", "On", "ON", "off", "Off", "OFF"]

/-- The spellings of null. -/
def nullTexts : List String := ["~", "null", "Null", "NULL", ""]

/-- Drops one sign. -/
def dropSign : List Char → List Char
  | '+' :: rest => rest
  | '-' :: rest => rest
  | cs => cs

/-- A digit or an underscore. -/
def isDigitOrUnderscore (c : Char) : Bool := c.isDigit || c == '_'

/-- A non-empty text of characters of a kind. -/
def isRun (kind : Char → Bool) (cs : List Char) : Bool := !cs.isEmpty && cs.all kind

/-- A digit of base sixty: one or two digits below sixty. -/
def isSexagesimalDigit : List Char → Bool
  | [a] => a.isDigit
  | [a, b] => '0' ≤ a && a ≤ '5' && b.isDigit
  | _ => false

/-- The parts of a text between colons. -/
def splitColons : List Char → List (List Char)
  | [] => [[]]
  | c :: rest =>
    if c = ':' then [] :: splitColons rest
    else
      match splitColons rest with
      | part :: parts => (c :: part) :: parts
      | [] => [[c]]

/-- A digit followed by digits and underscores. -/
def isDigits : List Char → Bool
  | c :: rest => c.isDigit && rest.all isDigitOrUnderscore
  | [] => false

/-- Digits that do not open with a zero. -/
def isWhole (cs : List Char) : Bool := isDigits cs && cs.head? != some '0'

/-- An integer without its sign. -/
def isIntBody (cs : List Char) : Bool :=
  match cs with
  | ['0'] => true
  | '0' :: 'b' :: rest => isRun (fun c => c == '0' || c == '1' || c == '_') rest
  | '0' :: 'x' :: rest =>
    isRun (fun c => c.isDigit || ('a' ≤ c && c ≤ 'f') || ('A' ≤ c && c ≤ 'F') || c == '_') rest
  | '0' :: rest => isRun (fun c => ('0' ≤ c && c ≤ '7') || c == '_') rest
  | cs =>
    match splitColons cs with
    | [whole] => isWhole whole
    | whole :: parts => isWhole whole && parts.all isSexagesimalDigit
    | [] => false

/-- Whether a plain text is an integer. -/
def isInt (cs : List Char) : Bool := isIntBody (dropSign cs)

/-- An exponent with a sign, or nothing. -/
def isExponent : List Char → Bool
  | [] => true
  | e :: s :: rest => (e == 'e' || e == 'E') && (s == '+' || s == '-') && isRun Char.isDigit rest
  | _ => false

/-- The digits behind a point with an exponent behind them. -/
def isFraction (cs : List Char) : Bool := isExponent (cs.dropWhile isDigitOrUnderscore)

/-- A floating point number of base sixty: all but the last part are digits, and the last one has
a point in or behind it. -/
def isSexagesimalFloat (cs : List Char) : Bool :=
  match cs.dropWhile (· != '.') with
  | _ :: places =>
    places.all isDigitOrUnderscore &&
      match splitColons (cs.takeWhile (· != '.')) with
      | whole :: part :: parts => isDigits whole && (part :: parts).all isSexagesimalDigit
      | _ => false
  | [] => false

/-- A floating point number with digits in front of its point. -/
def isDecimal (cs : List Char) : Bool :=
  match cs.dropWhile isDigitOrUnderscore with
  | '.' :: places => cs.head?.any Char.isDigit && isFraction places
  | _ => false

/-- Whether a plain text is a floating point number. -/
def isFloat (cs : List Char) : Bool :=
  let body := dropSign cs
  isDecimal body
    || (match cs with
      | '.' :: c :: rest => c.isDigit && isFraction rest
      | _ => false)
    || isSexagesimalFloat body
    || [".inf", ".Inf", ".INF"].contains (String.ofList body)
    || [".nan", ".NaN", ".NAN"].contains (String.ofList cs)

/-- The tag of a text by its form. -/
def ofForm (cs : List Char) : Tag :=
  let s := String.ofList cs
  if boolTexts.contains s then bool
  else if nullTexts.contains s then null
  else if isFloat cs then float
  else if isInt cs then int
  else if Timestamp.isImplicit cs then timestamp
  else if s = "<<" then merge
  else if s = "=" then mainValue
  else if s = "!" ∨ s = "&" ∨ s = "*" then other (schemaText ++ "yaml")
  else text

/-- The tag of a text that has none. A line feed at its end is no part of the form, unless there
is nothing else. -/
def ofPlain (s : String) : Tag :=
  match s.toList.reverse with
  | '\n' :: c :: rest => ofForm (c :: rest).reverse
  | ['\n'] => text
  | _ => ofForm s.toList

end Tag

end DocSchema.Yaml
