/-!
# UTF-8

Reading bytes as text. Only the shortest form of each code point is accepted, and no halves of
characters.

## Main definitions

* `decodeUtf8?`
-/

namespace DocSchema.Text

/-- The low six bits of a continuation byte. -/
def continuation? (b : UInt8) : Option Nat :=
  if 0x80 ≤ b.toNat ∧ b.toNat < 0xC0 then some (b.toNat - 0x80) else none

/-- The character of a code point, unless it is half of one or too large. -/
def character? (code : Nat) : Option Char :=
  if h : code.isValidChar then some (Char.ofNatAux code h) else none

/-- The first character of a string of bytes, with the bytes behind it. -/
def decodeFirst? : List UInt8 → Option (Char × List UInt8)
  | [] => none
  | a :: rest =>
    let n := a.toNat
    if n < 0x80 then some (Char.ofNat n, rest)
    else
      match rest with
      | b :: rest =>
        if 0xC2 ≤ n ∧ n < 0xE0 then do
          let b ← continuation? b
          return (← character? ((n - 0xC0) * 0x40 + b), rest)
        else
          match rest with
          | c :: rest =>
            if 0xE0 ≤ n ∧ n < 0xF0 then do
              let code := ((n - 0xE0) * 0x40 + (← continuation? b)) * 0x40 + (← continuation? c)
              if code < 0x800 then none else return (← character? code, rest)
            else
              match rest with
              | d :: rest =>
                if 0xF0 ≤ n ∧ n < 0xF5 then do
                  let code := (((n - 0xF0) * 0x40 + (← continuation? b)) * 0x40
                    + (← continuation? c)) * 0x40 + (← continuation? d)
                  if code < 0x10000 then none else return (← character? code, rest)
                else none
              | [] => none
          | [] => none
      | [] => none

/-- The characters of a string of bytes; `fuel` bounds their number. -/
def decodeFrom? (fuel : Nat) (read : List Char) (bytes : List UInt8) : Option (List Char) :=
  match bytes, fuel with
  | [], _ => some read.reverse
  | _ :: _, 0 => none
  | bytes, fuel + 1 =>
    match decodeFirst? bytes with
    | some (c, rest) => decodeFrom? fuel (c :: read) rest
    | none => none

/-- The text of a string of bytes, if it is one. -/
def decodeUtf8? (bytes : List UInt8) : Option String :=
  (decodeFrom? bytes.length [] bytes).map String.ofList

end DocSchema.Text
