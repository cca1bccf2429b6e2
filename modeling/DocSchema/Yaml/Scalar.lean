import DocSchema.Text.Base64
import DocSchema.Text.Blank
import DocSchema.Text.Lowercase
import DocSchema.Value
import DocSchema.Yaml.Fault
import DocSchema.Yaml.Tag

/-!
# Values of scalars

What the text of a scalar denotes, given its tag. The form of a plain text has been checked when
it got its tag, but a tag may be written in front of any text.

## Main definitions

* `Scalar.int`, `Scalar.float`, `Scalar.bool`, `Scalar.timestamp`, `Scalar.binary`
* `Scalar.value`: the value of a scalar with a tag
-/

namespace DocSchema.Yaml.Scalar

open Number (Binary64 Dyadic)

/-- Drops all underscores. -/
def dropUnderscores (cs : List Char) : List Char := cs.filter (· != '_')

/-! ## Integers -/

/-- The value of a digit of a base up to sixteen. -/
def digit? (base : Nat) (c : Char) : Option Nat :=
  match Text.hexDigit? c with
  | some n => if n < base then some n else none
  | none => none

/-- Drops the two characters that may announce a base in front of its digits. -/
def dropBaseMark (base : Nat) (cs : List Char) : List Char :=
  match cs with
  | '0' :: mark :: rest =>
    if (base == 2 && (mark == 'b' || mark == 'B')) || (base == 8 && (mark == 'o' || mark == 'O'))
      || (base == 16 && (mark == 'x' || mark == 'X'))
    then rest
    else cs
  | cs => cs

/-- An integer in a base, with blank characters around it and a sign. -/
def integer (base : Nat) (cs : List Char) : Except ScalarFault Int :=
  let invalid : Except ScalarFault Int := .error (.integer base (String.ofList cs))
  let (negative, body) := Binary64.takeSign (Text.stripChars cs)
  let digits := dropBaseMark base body
  if digits.isEmpty then invalid
  else if base == 10 && digits.all Char.isDigit && 4300 < digits.length then
    .error (.integerLength digits.length)
  else
    match digits.mapM (digit? base) with
    | some ds =>
      let n : Nat := ds.foldl (fun value d => value * base + d) 0
      .ok (if negative then -(n : Int) else n)
    | none => invalid

/-- The number whose digits of base sixty are given, the last one first. -/
def sexagesimal (digits : List Int) : Int :=
  digits.foldr (fun d value => d + 60 * value) 0

/-- An integer without its sign. -/
def unsigned (cs : List Char) : Except ScalarFault Int :=
  match cs with
  | [] => .error .emptyNumber
  | ['0'] => .ok 0
  | '0' :: 'b' :: rest => integer 2 rest
  | '0' :: 'x' :: rest => integer 16 rest
  | '0' :: _ => integer 8 cs
  | cs =>
    if cs.contains ':' then do
      let digits ← (Tag.splitColons cs).mapM (integer 10)
      return sexagesimal digits.reverse
    else integer 10 cs

/-- An integer. -/
def int (text : String) : Except ScalarFault Int :=
  match dropUnderscores text.toList with
  | [] => .error .emptyNumber
  | '-' :: rest => (unsigned rest).map (- ·)
  | '+' :: rest => unsigned rest
  | cs => unsigned cs

/-! ## Floating point numbers -/

/-- A floating point number with blank characters around it. -/
def decimal (cs : List Char) : Except ScalarFault Binary64 :=
  match Binary64.parse? (Text.stripChars cs) with
  | some x => .ok x
  | none => .error (.float (String.ofList cs))

/-- The rounded sum of two numbers; one that is zero has no sign. -/
def add : Binary64 → Binary64 → Binary64
  | .finite negative a, .finite negative' b =>
    let (p, q) := a.ratio
    let (r, s) := b.ratio
    let sum : Int :=
      (if negative then -1 else 1) * (p * s : Nat) + (if negative' then -1 else 1) * (r * q : Nat)
    Binary64.ofRatio (decide (sum < 0)) sum.natAbs (q * s)
  | .nan, _ => .nan
  | _, .nan => .nan
  | .infinite negative, .infinite negative' =>
    if negative = negative' then .infinite negative else .nan
  | .infinite negative, _ => .infinite negative
  | _, .infinite negative => .infinite negative

/-- The rounded product of a number and a positive integer. -/
def multiple (x : Binary64) (factor : Nat) : Binary64 :=
  match x with
  | .finite negative a => Binary64.ofRatio negative (a.ratio.1 * factor) a.ratio.2
  | x => x

/-- The number whose digits of base sixty are given, the last one first. -/
def sexagesimalFloat (sum : Binary64) (factor : Nat) : List Binary64 → Binary64
  | [] => sum
  | x :: xs => sexagesimalFloat (add sum (multiple x factor)) (60 * factor) xs

/-- A floating point number without its sign. -/
def unsignedFloat (cs : List Char) : Except ScalarFault Binary64 :=
  if cs = ".inf".toList then .ok (.infinite false)
  else if cs = ".nan".toList then .ok .nan
  else if cs.contains ':' then do
    let digits ← (Tag.splitColons cs).mapM decimal
    return sexagesimalFloat (Binary64.ofInt 0) 1 digits.reverse
  else decimal cs

/-- A floating point number. -/
def float (text : String) : Except ScalarFault Binary64 :=
  match (Text.lower (String.ofList (dropUnderscores text.toList))).toList with
  | [] => .error .emptyNumber
  | '-' :: rest => (unsignedFloat rest).map Binary64.neg
  | '+' :: rest => unsignedFloat rest
  | cs => unsignedFloat cs

/-! ## Other kinds -/

/-- The words for truth values. -/
def truthWords : List (String × Bool) :=
  [("yes", true), ("no", false), ("true", true), ("false", false), ("on", true), ("off", false)]

/-- A truth value in any case. -/
def bool (text : String) : Except ScalarFault Bool :=
  let word := Text.lower text
  match Assoc.find? word truthWords with
  | some b => .ok b
  | none => .error (.truth word)

/-- A date or a date with time. -/
def timestamp (text : String) : Except ScalarFault Value :=
  let cs := text.toList
  let cs := if cs.getLast? == some '\n' then cs.dropLast else cs
  match Timestamp.parse? cs with
  | none => .error .timestamp
  | some t =>
    let date : Date := ⟨t.year, t.month, t.day⟩
    match t.clock with
    | none =>
      match date.fault? with
      | some fault => .error (.calendar fault)
      | none => .ok (.date date)
    | some clock =>
      let time : DateTime :=
        { date
          time := ⟨clock.hour, clock.minute, clock.second, Timestamp.microseconds clock.fraction⟩
          offset := clock.zone.map Timestamp.zoneSeconds }
      match Timestamp.dateTimeFault? time with
      | some fault => .error (.calendar fault)
      | none => .ok (.datetime time)

/-- Binary data in base 64. -/
def binary (text : String) : Except Problem (List UInt8) :=
  let cs := text.toList
  if cs.all fun c => c.toNat < 128 then
    match Text.decodeBase64? cs with
    | some bytes => .ok bytes
    | none => .error .binary
  else .error .binary

/-- The value of a text with a tag. The tags of lists and mappings, and tags that are not known,
give none. -/
def value (tag : Tag) (text : String) : Except Fault Value :=
  match tag with
  | .null => .ok .null
  | .text => .ok (.text text)
  | .bool => ((bool text).map Value.bool).mapError .scalar
  | .int => ((int text).map Value.int).mapError .scalar
  | .float => ((float text).map Value.float).mapError .scalar
  | .timestamp => (timestamp text).mapError .scalar
  | .binary => ((binary text).map Value.bytes).mapError .problem
  | .list | .map | .set | .pairs => .error (.problem .shape)
  | .merge | .mainValue | .other _ => .error (.problem .unknownTag)

end DocSchema.Yaml.Scalar
