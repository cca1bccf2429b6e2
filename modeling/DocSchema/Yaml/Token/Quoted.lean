import DocSchema.Assoc
import DocSchema.Yaml.Cursor
import DocSchema.Yaml.Fault

/-!
# Quoted texts

A quoted text may go over several lines. A line end inside it, together with the spaces around it,
stands for one space, and each further empty line for a line feed. Between single quotes only a
quote is special, and is written twice; between double quotes a backslash opens an escape.

## Main definitions

* `readQuoted`: the text behind an opening quote
-/

namespace DocSchema.Yaml

/-- The escapes of one character. -/
def escapeTable : List (Char × Nat) :=
  [('0', 0), ('a', 7), ('b', 8), ('t', 9), ('\t', 9), ('n', 10), ('v', 11), ('f', 12), ('r', 13),
   ('e', 27), (' ', 32), ('"', 34), ('\\', 92), ('/', 47), ('N', 0x85), ('_', 0xA0),
   ('L', 0x2028), ('P', 0x2029)]

/-- The number of hexadecimal digits behind the letter of an escape. -/
def escapeWidth? (c : Char) : Option Nat :=
  if c = 'x' then some 2 else if c = 'u' then some 4 else if c = 'U' then some 8 else none

/-- The value of hexadecimal digits, unless another character is among them. -/
def hexValue? (digits : List Char) : Option Nat :=
  digits.foldl (fun value c => do return (← value) * 16 + (← Text.hexDigit? c)) (some 0)

/-- The code point of a number of hexadecimal digits at a place. -/
def codePoint? (width : Nat) (c : Cursor) : Option Nat :=
  let digits := c.rest.take width
  if digits.length = width then hexValue? digits else none

/-- The second half of a character that is written as two escapes. -/
def lowHalf? (c : Cursor) : Option Nat :=
  match c.rest with
  | '\\' :: 'u' :: _ =>
    match codePoint? 4 (c.skip 2) with
    | some low => if 0xDC00 ≤ low ∧ low < 0xE000 then some low else none
    | none => none
  | _ => none

/-- The character of a code point with the place behind it. Two halves of a character stand for
that character, and half a character for the replacement character. -/
def characterOf (code : Nat) (c : Cursor) : Except Fault (Char × Cursor) :=
  if 0x110000 ≤ code then .error (.scalar .codePoint)
  else if 0xD800 ≤ code ∧ code < 0xDC00 then
    match lowHalf? c with
    | some low =>
      .ok (Char.ofNat (0x10000 + (code - 0xD800) * 0x400 + (low - 0xDC00)), c.skip 6)
    | none => .ok (Char.ofNat 0xFFFD, c)
  else if 0xDC00 ≤ code ∧ code < 0xE000 then .ok (Char.ofNat 0xFFFD, c)
  else .ok (Char.ofNat code, c)

/-- The line ends after a first one, with the spaces before and between them skipped; `fuel`
bounds their number. -/
def foldedBreaks (fuel : Nat) (c : Cursor) : Except Fault (List Char × Cursor) :=
  match fuel with
  | 0 => .ok ([], c)
  | fuel + 1 =>
    if c.atSeparator then .error (.problem .openQuote)
    else
      let c := c.skipWhile isSpaceOrTab
      match c.lineBreak? with
      | some (ch, c) => do
        let (more, c) ← foldedBreaks fuel c
        return (ch :: more, c)
      | none => .ok ([], c)

/-- What a line end inside a text stands for, given the line ends that follow it. -/
def foldLine (ch : Char) (breaks : List Char) : List Char :=
  if ch ≠ '\n' then ch :: breaks
  else if breaks.isEmpty then [' ']
  else breaks

/-- The spaces at a place, or what the line ends among them stand for. -/
def quotedSpacing (c : Cursor) : Except Fault (List Char × Cursor) :=
  let spaces := c.takeWhile isSpaceOrTab
  let behind := c.skipWhile isSpaceOrTab
  match behind.lineBreak? with
  | some (ch, c) => do
    let (breaks, c) ← foldedBreaks (c.rest.length + 1) c
    return (foldLine ch breaks, c)
  | none =>
    if behind.rest.isEmpty then .error (.problem .openQuote) else .ok (spaces, behind)

/-- What stands behind a backslash. A line end behind it is dropped. -/
def quotedEscape (c : Cursor) : Except Fault (List Char × Cursor) :=
  match c.peek with
  | none => .error (.problem .escape)
  | some ch =>
    match Assoc.find? ch escapeTable with
    | some code => .ok ([Char.ofNat code], c.next)
    | none =>
      match escapeWidth? ch with
      | some width =>
        match codePoint? width c.next with
        | some code => do
          let (ch, c) ← characterOf code (c.skip (width + 1))
          return ([ch], c)
        | none => .error (.problem .escape)
      | none =>
        match c.lineBreak? with
        | some (_, c) => foldedBreaks (c.rest.length + 1) c
        | none => .error (.problem .escape)

/-- The rest of a quoted text, after the pieces `read`, of which the last comes first. -/
def quotedBody (double : Bool) (fuel : Nat) (read : List (List Char)) (c : Cursor) :
    Except Fault (List Char × Cursor) :=
  match fuel with
  | 0 => .error (.problem .openQuote)
  | fuel + 1 =>
    match c.peek with
    | none => .error (.problem .openQuote)
    | some ch =>
      if ch == '\'' && !double then
        if c.peekAt 1 == some '\'' then quotedBody double fuel (['\''] :: read) (c.skip 2)
        else .ok (read.reverse.flatten, c.next)
      else if ch == '"' && double then .ok (read.reverse.flatten, c.next)
      else if ch == '\\' && double then do
        let (piece, c) ← quotedEscape c.next
        quotedBody double fuel (piece :: read) c
      else if isSpacing ch then do
        let (piece, c) ← quotedSpacing c
        quotedBody double fuel (piece :: read) c
      else quotedBody double fuel ([ch] :: read) c.next

/-- The quoted text whose opening quote is here. -/
def readQuoted (double : Bool) (c : Cursor) : Except Fault (String × Cursor) := do
  let (read, c) ← quotedBody double (c.rest.length + 1) [] c.next
  return (String.ofList read, c)

end DocSchema.Yaml
