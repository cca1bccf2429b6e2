import DocSchema.Number.Binary64

/-!
# Decimals of a binary number

A decimal is `digits * 10 ^ exponent`. This module chooses the decimals that a positive magnitude
is written with.

## Main definitions

* `Decimal.shortest`: the fewest digits that read back as the same number, and of those the
  nearest to it
* `Decimal.rounded`: a given number of significant digits, with ties to the even digit

## Implementation notes

For each number of digits only the two neighbours of the magnitude on the decimal grid can be the
nearest decimal that reads back, so these two are read back and compared. Seventeen digits always
suffice.
-/

namespace DocSchema.Number

/-- The number `digits * 10 ^ exponent`. -/
structure Decimal where
  digits : Nat
  exponent : Int
  deriving DecidableEq, Repr

namespace Decimal

/-- The number of decimal digits of a natural number; zero has none. -/
def digitCount (n : Nat) : Nat := if n = 0 then 0 else (Nat.toDigits 10 n).length

/-- The place of the first digit: the least `p` with `num / den < 10 ^ p`, for a positive
quotient. -/
def leadingPlace (num den : Nat) : Int :=
  if den ≤ num then digitCount (num / den)
  else 1 - (digitCount ((den - 1) / num) : Int)

/-- The quotient in units of `10 ^ exponent`, rounded towards zero, with the divisor that makes it
exact. -/
def onGrid (num den : Nat) (exponent : Int) : Nat × Nat :=
  if 0 ≤ exponent then (num, den * Nat.pow 10 exponent.toNat)
  else (num * Nat.pow 10 (-exponent).toNat, den)

/-- Drops the zeros at the end of the digits; `fuel` bounds their number. -/
def trimZeros (fuel : Nat) (d : Decimal) : Decimal :=
  match fuel with
  | 0 => d
  | fuel + 1 =>
    if d.digits ≠ 0 ∧ d.digits % 10 = 0 then trimZeros fuel ⟨d.digits / 10, d.exponent + 1⟩ else d

/-- The decimal with `count` digits next to a magnitude that reads back as it, if there is one. -/
def readingBack? (d : Dyadic) (count : Nat) : Option Decimal :=
  let (num, den) := d.ratio
  let exponent := leadingPlace num den - count
  let (num', den') := onGrid num den exponent
  let below := num' / den'
  let readsBack (digits : Nat) : Bool :=
    Binary64.ofDecimal false digits exponent == Binary64.finite false d
  match readsBack below, readsBack (below + 1) with
  | true, true => some ⟨roundDiv num' den', exponent⟩
  | true, false => some ⟨below, exponent⟩
  | false, true => some ⟨below + 1, exponent⟩
  | false, false => none

/-- The shortest decimal that reads back as a positive magnitude. -/
def shortest (d : Dyadic) : Decimal :=
  match (List.range 17).findSome? fun i => readingBack? d (i + 1) with
  | some decimal => trimZeros 20 decimal
  | none => ⟨d.mantissa, d.exponent⟩

/-- The decimal of `count` significant digits nearest to a positive magnitude. -/
def rounded (d : Dyadic) (count : Nat) : Decimal :=
  let (num, den) := d.ratio
  let exponent := leadingPlace num den - count
  let (num', den') := onGrid num den exponent
  trimZeros (count + 1) ⟨roundDiv num' den', exponent⟩

end Decimal

end DocSchema.Number
