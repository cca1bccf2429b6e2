import DocSchema.Number.Rounding

/-!
# Binary floating point numbers

A 64-bit floating point number by its value: not a number, an infinity, or a sign with a magnitude
`mantissa * 2 ^ exponent`. The program only reads such numbers, writes them and compares them with
integers, so that exact arithmetic on natural numbers is all they need.

## Main definitions

* `Dyadic.nearest`: the magnitude of at most 53 bits nearest to a quotient
* `Binary64.ofRatio`, `Binary64.ofDecimal`: correctly rounded conversions
* `Binary64.toInt?`: the integer that a number is equal to

## Implementation notes

A magnitude that comes from `Dyadic.nearest` is in lowest form: the mantissa has 53 bits, or the
exponent is the least one. Two equal magnitudes are then the same pair, and zero is `0 * 2 ^ -1074`.

Definitions use `Nat.pow` itself. The power sign stands for the power of whatever monoid is in
scope, and a definition should not depend on that.
-/

namespace DocSchema.Number

/-- A magnitude `mantissa * 2 ^ exponent`. -/
structure Dyadic where
  mantissa : Nat
  exponent : Int
  deriving DecidableEq, Repr

namespace Dyadic

/-- The least exponent. -/
def leastExponent : Int := -1074

/-- The greatest exponent of a finite number. -/
def greatestExponent : Int := 971

/-- The magnitude as a quotient of natural numbers. -/
def ratio (d : Dyadic) : Nat × Nat :=
  if 0 ≤ d.exponent then (d.mantissa * Nat.pow 2 d.exponent.toNat, 1)
  else (d.mantissa, Nat.pow 2 (-d.exponent).toNat)

/-- The quotient `num / den` in units of `2 ^ exponent`, rounded. -/
def scaled (num den : Nat) (exponent : Int) : Nat :=
  if 0 ≤ exponent then roundDiv num (den * Nat.pow 2 exponent.toNat)
  else roundDiv (num * Nat.pow 2 (-exponent).toNat) den

/-- The exponent for which a quotient has 53 bits before the point, or the least one. -/
def exponentFor (num den : Nat) : Int :=
  let guess : Int := (Nat.log2 num : Int) - (Nat.log2 den : Int) - 52
  let tooLarge :=
    if 0 ≤ guess then num < Nat.pow 2 52 * (den * Nat.pow 2 guess.toNat)
    else num * Nat.pow 2 (-guess).toNat < Nat.pow 2 52 * den
  let exponent := if tooLarge then guess - 1 else guess
  if exponent < leastExponent then leastExponent else exponent

/-- The magnitude of at most 53 bits nearest to `num / den`, with ties to the even mantissa. -/
def nearest (num den : Nat) : Dyadic :=
  if num = 0 then ⟨0, leastExponent⟩
  else
    let exponent := exponentFor num den
    let mantissa := scaled num den exponent
    if mantissa = Nat.pow 2 53 then ⟨Nat.pow 2 52, exponent + 1⟩ else ⟨mantissa, exponent⟩

/-- The magnitude with a fixed number of decimal places, in units of the last place. -/
def toFixed (d : Dyadic) (places : Nat) : Nat :=
  let (num, den) := d.ratio
  roundDiv (num * Nat.pow 10 places) den

end Dyadic

/-- A 64-bit floating point number. -/
inductive Binary64
  | nan
  | infinite (negative : Bool)
  | finite (negative : Bool) (magnitude : Dyadic)
  deriving DecidableEq, Repr

namespace Binary64

/-- The number nearest to a signed quotient; too large a quotient gives an infinity. -/
def ofRatio (negative : Bool) (num den : Nat) : Binary64 :=
  let magnitude := Dyadic.nearest num den
  if Dyadic.greatestExponent < magnitude.exponent then infinite negative
  else finite negative magnitude

/-- The number nearest to `digits * 10 ^ exponent`. Exponents far out of range are decided
without the power. -/
def ofDecimal (negative : Bool) (digits : Nat) (exponent : Int) : Binary64 :=
  if digits = 0 then ofRatio negative 0 1
  else if 400 < exponent then infinite negative
  else if exponent + (Nat.log2 digits : Int) < -1200 then ofRatio negative 0 1
  else if 0 ≤ exponent then ofRatio negative (digits * Nat.pow 10 exponent.toNat) 1
  else ofRatio negative digits (Nat.pow 10 (-exponent).toNat)

/-- The number nearest to an integer. -/
def ofInt (n : Int) : Binary64 := ofRatio (decide (n < 0)) n.natAbs 1

/-- The same number with the opposite sign. -/
def neg : Binary64 → Binary64
  | nan => nan
  | infinite negative => infinite (!negative)
  | finite negative magnitude => finite (!negative) magnitude

/-- Whether the number is zero, of either sign. -/
def isZero : Binary64 → Bool
  | finite _ magnitude => magnitude.mantissa == 0
  | _ => false

/-- The integer that the number is equal to. -/
def toInt? : Binary64 → Option Int
  | finite negative magnitude =>
    let (num, den) := magnitude.ratio
    if num % den = 0 then
      some (if negative then -((num / den : Nat) : Int) else ((num / den : Nat) : Int))
    else none
  | _ => none

/-- Numeric equality: the zeros are equal, and what is not a number differs from everything. -/
def sameNumber (x y : Binary64) : Bool :=
  match x, y with
  | nan, _ => false
  | _, nan => false
  | _, _ => (x.isZero && y.isZero) || x == y

end Binary64

end DocSchema.Number
