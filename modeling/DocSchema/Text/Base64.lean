/-!
# Base 64

Bytes written with 64 characters, three bytes in four characters. Reading passes over all other
characters, and ends where padding completes a group.

## Main definitions

* `decodeBase64?`, `encodeBase64`
-/

namespace DocSchema.Text

/-- The digits of base 64. -/
def base64Digits : List Char :=
  "ABCDEFGHIJKLMNOPQRSTUVWXYZabcdefghijklmnopqrstuvwxyz0123456789+/".toList

/-- The value of a digit. -/
def base64Value? (c : Char) : Option Nat :=
  let n := c.toNat
  if 65 ≤ n ∧ n ≤ 90 then some (n - 65)
  else if 97 ≤ n ∧ n ≤ 122 then some (n - 71)
  else if 48 ≤ n ∧ n ≤ 57 then some (n + 4)
  else if c = '+' then some 62
  else if c = '/' then some 63
  else none

/-- Reads on after `count` digits of a group, whose bits that make no byte yet are `bits`, and
`pads` signs of padding in a row. -/
def decodeGroups (count bits pads : Nat) (read : List UInt8) : List Char → Option (List UInt8)
  | [] => if count = 0 then some read.reverse else none
  | c :: rest =>
    if c = '=' then
      if 2 ≤ count then
        if 4 ≤ count + pads + 1 then some read.reverse
        else decodeGroups count bits (pads + 1) read rest
      else decodeGroups count bits pads read rest
    else
      match base64Value? c with
      | none => decodeGroups count bits pads read rest
      | some v =>
        match count with
        | 0 => decodeGroups 1 v 0 read rest
        | 1 => decodeGroups 2 (v % 16) 0 ((bits * 4 + v / 16).toUInt8 :: read) rest
        | 2 => decodeGroups 3 (v % 4) 0 ((bits * 16 + v / 4).toUInt8 :: read) rest
        | _ => decodeGroups 0 0 0 ((bits * 64 + v).toUInt8 :: read) rest

/-- The bytes of a text in base 64. -/
def decodeBase64? (cs : List Char) : Option (List UInt8) := decodeGroups 0 0 0 [] cs

/-- The digit with a value. -/
def base64Digit (n : Nat) : Char := (base64Digits[n % 64]?).getD 'A'

/-- Bytes in base 64, with padding at the end. -/
def encodeBase64 : List UInt8 → List Char
  | a :: b :: c :: rest =>
    let n := (a.toNat * 256 + b.toNat) * 256 + c.toNat
    base64Digit (n / 262144) :: base64Digit (n / 4096) :: base64Digit (n / 64) :: base64Digit n
      :: encodeBase64 rest
  | [a, b] =>
    let n := a.toNat * 256 + b.toNat
    [base64Digit (n / 1024), base64Digit (n / 16), base64Digit (n * 4), '=']
  | [a] => [base64Digit (a.toNat / 4), base64Digit (a.toNat * 16), '=', '=']
  | [] => []

end DocSchema.Text
