import DocSchema.Number.Decimal

/-!
# Spelling of numbers

How numbers are written, and how they are read from text.

## Main definitions

* `Binary64.spelling`: the shortest digits that read back. A number whose first digit has a place
  from `10 ^ -4` to `10 ^ 15` is written positionally with at least one digit on either side of the
  point, any other with an exponent of at least two digits.
* `Binary64.parse?`: reads a decimal, with optional exponent, or the name of a number that is not
  finite
* `fixedChars`: a fixed number of decimal places
-/

namespace DocSchema.Number

/-- The decimal digits of a natural number. -/
def digitChars (n : Nat) : List Char := Nat.toDigits 10 n

/-- A number given in units of `10 ^ -places`, written with that many digits behind the point. -/
def fixedChars (units places : Nat) : List Char :=
  let digits := digitChars units
  let padded := List.replicate (places + 1 - digits.length) '0' ++ digits
  if places = 0 then padded
  else padded.take (padded.length - places) ++ '.' :: padded.drop (padded.length - places)

/-- An exponent with its sign and at least two digits. -/
def exponentChars (exponent : Int) : List Char :=
  let digits := digitChars exponent.natAbs
  'e' :: (if exponent < 0 then '-' else '+') :: (List.replicate (2 - digits.length) '0' ++ digits)

/-- A positive decimal whose digits end in no zero, positionally or with an exponent. -/
def Decimal.chars (d : Decimal) : List Char :=
  let digits := digitChars d.digits
  let point : Int := digits.length + d.exponent
  if -4 < point ∧ point ≤ 16 then
    if point ≤ 0 then '0' :: '.' :: (List.replicate (-point).toNat '0' ++ digits)
    else
      let whole := point.toNat
      if digits.length ≤ whole then
        digits ++ List.replicate (whole - digits.length) '0' ++ ['.', '0']
      else digits.take whole ++ '.' :: digits.drop whole
  else
    match digits with
    | [] => []
    | [first] => first :: exponentChars (point - 1)
    | first :: more => first :: '.' :: (more ++ exponentChars (point - 1))

namespace Binary64

/-- The characters of a number. -/
def chars : Binary64 → List Char
  | nan => ['n', 'a', 'n']
  | infinite negative => (if negative then ['-'] else []) ++ ['i', 'n', 'f']
  | finite negative magnitude =>
    (if negative then ['-'] else []) ++
      if magnitude.mantissa = 0 then ['0', '.', '0'] else (Decimal.shortest magnitude).chars

/-- The spelling of a number. -/
def spelling (x : Binary64) : String := String.ofList x.chars

/-! ## Reading -/

/-- The value of a run of decimal digits. -/
def digitsValue (cs : List Char) : Nat :=
  cs.foldl (fun value c => 10 * value + (c.toNat - '0'.toNat)) 0

/-- A run of digits, in which single underscores may stand between two digits, and what follows
it. -/
def takeDigits : List Char → List Char × List Char
  | [] => ([], [])
  | '_' :: c :: rest =>
    if c.isDigit then
      let (digits, after) := takeDigits rest
      (c :: digits, after)
    else ([], '_' :: c :: rest)
  | c :: rest =>
    if c.isDigit then
      let (digits, after) := takeDigits rest
      (c :: digits, after)
    else ([], c :: rest)

/-- A run of digits that does not open with an underscore. -/
def takeRun (cs : List Char) : List Char × List Char :=
  if cs.head?.any Char.isDigit then takeDigits cs else ([], cs)

/-- An optional sign. -/
def takeSign : List Char → Bool × List Char
  | '-' :: rest => (true, rest)
  | '+' :: rest => (false, rest)
  | cs => (false, cs)

/-- An exponent up to the end of the text. -/
def exponentValue? : List Char → Option Int
  | [] => some 0
  | c :: rest =>
    if c = 'e' ∨ c = 'E' then
      let (negative, rest) := takeSign rest
      match takeRun rest with
      | ([], _) => none
      | (digits, []) =>
        let value : Int := digitsValue digits
        some (if negative then -value else value)
      | _ => none
    else none

/-- Reads an unsigned decimal up to the end of the text. -/
def parseMagnitude? (negative : Bool) (cs : List Char) : Option Binary64 :=
  let (whole, rest) := takeRun cs
  let (places, rest) := match rest with
    | '.' :: rest => takeRun rest
    | rest => ([], rest)
  if whole.isEmpty && places.isEmpty then none
  else
    (exponentValue? rest).map fun exponent =>
      ofDecimal negative (digitsValue (whole ++ places)) (exponent - places.length)

/-- Reads a number: an optional sign, then a decimal or, in any case, `inf`, `infinity` or
`nan`. -/
def parse? (cs : List Char) : Option Binary64 :=
  let (negative, cs) := takeSign cs
  let name := String.ofList (cs.map Char.toLower)
  if name = "inf" ∨ name = "infinity" then some (infinite negative)
  else if name = "nan" then some nan
  else parseMagnitude? negative cs

end Binary64

end DocSchema.Number
