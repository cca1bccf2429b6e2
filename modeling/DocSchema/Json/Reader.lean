import DocSchema.Json

/-!
# Reading JSON

A decoder for JSON text. It takes the whole grammar: any white space between the parts, every
escape, and numbers in every spelling. A number without point and exponent is an integer of any
size, any other is rounded to the nearest floating point number. Of two members with one key the
later gives the value and the earlier the place.

## Main definitions

* `Json.read?`: the value of a text
* `Json.readValue?`: the value at the start of a text, with what follows it

## Implementation notes

The mutual functions go down a fuel that starts with two steps for each character, which is more
than a text can ask for: of two calls that are nested, one takes a character.
-/

namespace DocSchema.Json

open Number (Binary64)

/-- Drops white space. -/
def skipSpace : List Char → List Char
  | c :: rest => if c = ' ' ∨ c = '\n' ∨ c = '\r' ∨ c = '\t' then skipSpace rest else c :: rest
  | [] => []

/-- A code unit of four digits. -/
def codeUnit? : List Char → Option (Nat × List Char)
  | a :: b :: c :: d :: rest => do
    let a ← Text.hexDigit? a
    let b ← Text.hexDigit? b
    let c ← Text.hexDigit? c
    let d ← Text.hexDigit? d
    return (((a * 16 + b) * 16 + c) * 16 + d, rest)
  | _ => none

/-- The character of a code unit, together with the second unit of a pair if there is one. -/
def unitChar? (unit : Nat) (rest : List Char) : Option (Char × List Char) :=
  if 0xD800 ≤ unit ∧ unit < 0xDC00 then
    match rest with
    | '\\' :: 'u' :: rest => do
      let (low, rest) ← codeUnit? rest
      if 0xDC00 ≤ low ∧ low < 0xE000 then
        return (Char.ofNat (0x10000 + (unit - 0xD800) * 0x400 + (low - 0xDC00)), rest)
      else none
    | _ => none
  else if 0xDC00 ≤ unit ∧ unit < 0xE000 then none
  else some (Char.ofNat unit, rest)

/-- The character of an escape, from behind the backslash on. -/
def escape? : List Char → Option (Char × List Char)
  | '"' :: rest => some ('"', rest)
  | '\\' :: rest => some ('\\', rest)
  | '/' :: rest => some ('/', rest)
  | 'b' :: rest => some (Char.ofNat 8, rest)
  | 'f' :: rest => some (Char.ofNat 12, rest)
  | 'n' :: rest => some ('\n', rest)
  | 'r' :: rest => some ('\r', rest)
  | 't' :: rest => some ('\t', rest)
  | 'u' :: rest => do
    let (unit, rest) ← codeUnit? rest
    unitChar? unit rest
  | _ => none

/-- The characters of a string up to its closing quote; `fuel` bounds their number. -/
def stringBody? (fuel : Nat) (read : List Char) : List Char → Option (List Char × List Char)
  | [] => none
  | c :: rest =>
    match fuel with
    | 0 => none
    | fuel + 1 =>
      if c = '"' then some (read.reverse, rest)
      else if c = '\\' then
        match escape? rest with
        | some (c, rest) => stringBody? fuel (c :: read) rest
        | none => none
      else if c.toNat < 32 then none
      else stringBody? fuel (c :: read) rest

/-- A string from behind its opening quote on. -/
def string? (cs : List Char) : Option (String × List Char) :=
  (stringBody? (cs.length + 1) [] cs).map fun (read, rest) => (String.ofList read, rest)

/-- The fraction of a number: the digits behind a point. -/
def fraction? : List Char → Option (List Char × List Char)
  | '.' :: rest =>
    let digits := rest.takeWhile Char.isDigit
    if digits.isEmpty then none else some (digits, rest.dropWhile Char.isDigit)
  | cs => some ([], cs)

/-- The exponent of a number, if it has one. -/
def exponent? : List Char → Option (Option Int × List Char)
  | [] => some (none, [])
  | c :: rest =>
    if c = 'e' ∨ c = 'E' then
      let (negative, rest) := Binary64.takeSign rest
      let digits := rest.takeWhile Char.isDigit
      if digits.isEmpty then none
      else
        let value : Int := Binary64.digitsValue digits
        some (some (if negative then -value else value), rest.dropWhile Char.isDigit)
    else some (none, c :: rest)

/-- A number. -/
def number? (cs : List Char) : Option (Json × List Char) := do
  let (negative, cs) := match cs with
    | '-' :: rest => (true, rest)
    | cs => (false, cs)
  let digits := cs.takeWhile Char.isDigit
  let rest := cs.dropWhile Char.isDigit
  if digits.isEmpty || (digits.head? == some '0' && digits.length != 1) then none
  else
    let isInteger := match rest with
      | c :: _ => c != '.' && c != 'e' && c != 'E'
      | [] => true
    if isInteger then
      let value : Int := Binary64.digitsValue digits
      return (int (if negative then -value else value), rest)
    else
      let (places, rest) ← fraction? rest
      let (exponent, rest) ← exponent? rest
      return (float (Binary64.ofDecimal negative (Binary64.digitsValue (digits ++ places))
        (exponent.getD 0 - places.length)), rest)

/-- Drops a word. -/
def word? (word cs : List Char) : Option (List Char) :=
  if word.isPrefixOf cs then some (cs.drop word.length) else none

mutual

/-- The value at the start of a text, with what follows it. -/
def readValue? (fuel : Nat) (cs : List Char) : Option (Json × List Char) :=
  match fuel with
  | 0 => none
  | fuel + 1 =>
    match cs with
    | '"' :: rest => (string? rest).map fun (s, rest) => (text s, rest)
    | '[' :: rest =>
      match skipSpace rest with
      | ']' :: rest => some (list [], rest)
      | rest => (readItems? fuel rest).map fun (items, rest) => (list items, rest)
    | '\x7b' :: rest =>
      match skipSpace rest with
      | '\x7d' :: rest => some (object [], rest)
      | rest => (readMembers? fuel rest).map fun (members, rest) =>
        (object (Assoc.ofList (· == ·) members), rest)
    | 't' :: _ => (word? "true".toList cs).map fun rest => (bool true, rest)
    | 'f' :: _ => (word? "false".toList cs).map fun rest => (bool false, rest)
    | 'n' :: _ => (word? "null".toList cs).map fun rest => (null, rest)
    | cs => number? cs

/-- The items of a list, from the first one to the closing bracket. -/
def readItems? (fuel : Nat) (cs : List Char) : Option (List Json × List Char) :=
  match fuel with
  | 0 => none
  | fuel + 1 =>
    match readValue? fuel cs with
    | none => none
    | some (item, rest) =>
      match skipSpace rest with
      | ',' :: rest =>
        (readItems? fuel (skipSpace rest)).map fun (items, rest) => (item :: items, rest)
      | ']' :: rest => some ([item], rest)
      | _ => none

/-- The members of an object, from the first one to the closing brace. -/
def readMembers? (fuel : Nat) (cs : List Char) : Option (List (String × Json) × List Char) :=
  match fuel with
  | 0 => none
  | fuel + 1 =>
    match cs with
    | '"' :: rest =>
      match string? rest with
      | none => none
      | some (key, rest) =>
        match skipSpace rest with
        | ':' :: rest =>
          match readValue? fuel (skipSpace rest) with
          | none => none
          | some (value, rest) =>
            match skipSpace rest with
            | ',' :: rest =>
              (readMembers? fuel (skipSpace rest)).map fun (members, rest) =>
                ((key, value) :: members, rest)
            | '\x7d' :: rest => some ([(key, value)], rest)
            | _ => none
        | _ => none
    | _ => none

end

/-- The value of a JSON text. -/
def read? (s : String) : Option Json :=
  let cs := skipSpace s.toList
  match readValue? (2 * cs.length + 2) cs with
  | some (value, rest) => if (skipSpace rest).isEmpty then some value else none
  | none => none

end DocSchema.Json
