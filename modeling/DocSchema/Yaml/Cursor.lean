import DocSchema.Yaml.Character

/-!
# Places in a text

A cursor is a place in a text: what follows there, and how many characters, lines and columns lie
before. A byte order mark takes no column.

## Main definitions

* `Cursor.next`, `Cursor.skip`, `Cursor.skipWhile`: moving on
* `Cursor.lineBreak?`: the end of a line as one character
-/

namespace DocSchema.Yaml

/-- A place in a text. -/
structure Cursor where
  rest : List Char
  index : Nat := 0
  line : Nat := 0
  column : Nat := 0
  deriving Repr

namespace Cursor

/-- The next character. -/
def peek (c : Cursor) : Option Char := c.rest.head?

/-- The character at a distance. -/
def peekAt (c : Cursor) (distance : Nat) : Option Char := c.rest[distance]?

/-- Whether a line ends with a character in front of the rest of a text. The first of the two
characters that end a line together does not. -/
def endsLineBefore (ch : Char) (rest : List Char) : Bool :=
  isBreak ch && !(ch == '\r' && rest.head? == some '\n')

/-- The place behind the next character. -/
def next (c : Cursor) : Cursor :=
  match c.rest with
  | [] => c
  | ch :: rest =>
    if endsLineBefore ch rest then
      { rest, index := c.index + 1, line := c.line + 1, column := 0 }
    else if ch.toNat = 0xFEFF then { c with rest, index := c.index + 1 }
    else { c with rest, index := c.index + 1, column := c.column + 1 }

/-- The place behind several characters. -/
def skip : Nat → Cursor → Cursor
  | 0, c => c
  | n + 1, c => skip n c.next

/-- The characters of a kind at a place. -/
def takeWhile (kind : Char → Bool) (c : Cursor) : List Char := c.rest.takeWhile kind

/-- The place behind the characters of a kind. -/
def skipWhile (kind : Char → Bool) (c : Cursor) : Cursor :=
  c.skip (c.rest.takeWhile kind).length

/-- Skips spaces. -/
def skipSpaces (c : Cursor) : Cursor := c.skipWhile (· == ' ')

/-- Skips a comment, if one starts here. -/
def skipComment (c : Cursor) : Cursor :=
  if c.peek == some '#' then c.skipWhile fun ch => !isBreak ch else c

/-- Skips spaces up to a column. -/
def skipIndent (column : Nat) (c : Cursor) : Cursor :=
  c.skip (min (column - c.column) (c.rest.takeWhile (· == ' ')).length)

/-- The end of a line, as a line feed or as the separator that it is, and the place behind it. -/
def lineBreak? (c : Cursor) : Option (Char × Cursor) :=
  match c.rest with
  | '\r' :: '\n' :: _ => some ('\n', c.next.next)
  | ch :: _ =>
    if isBreak ch then
      some (if ch.toNat = 0x2028 ∨ ch.toNat = 0x2029 then ch else '\n', c.next)
    else none
  | [] => none

/-- Skips the end of a line, if there is one. -/
def skipBreak (c : Cursor) : Cursor :=
  match c.lineBreak? with
  | some (_, c) => c
  | none => c

/-- Whether a line of three hyphens or dots is here that separates documents. -/
def atSeparator (c : Cursor) : Bool :=
  match c.rest with
  | '-' :: '-' :: '-' :: rest => endsWord rest.head?
  | '.' :: '.' :: '.' :: rest => endsWord rest.head?
  | _ => false

end Cursor

end DocSchema.Yaml
