import DocSchema.Yaml.Cursor
import DocSchema.Yaml.Fault

/-!
# Block texts

A block text consists of the lines below its header that are indented enough. The header tells
whether lines are joined, and may tell the indentation and what becomes of the line ends at the
end of the text.

## Main definitions

* `BlockHeader`, `readHeader`
* `readBlock`: the block text at a place
-/

namespace DocSchema.Yaml

/-- What becomes of the line ends at the end of a block text. -/
inductive Chomping
  /-- One of them stays. -/
  | clip
  | strip
  | keep
  deriving DecidableEq, Repr

/-- The header of a block text. -/
structure BlockHeader where
  chomping : Chomping := .clip
  /-- How much further than its surroundings the text is indented, if that is given. -/
  increment : Option Nat := none
  deriving DecidableEq, Repr

/-- The sign of a chomping. -/
def chompingOf? (c : Char) : Option Chomping :=
  if c = '+' then some .keep else if c = '-' then some .strip else none

/-- The digit of an increment, which is not zero. -/
def incrementOf? (c : Char) : Option Nat :=
  if c.isDigit then some (c.toNat - '0'.toNat) else none

/-- The signs of a header, in either order. -/
def readIndicators (c : Cursor) : Except Fault (BlockHeader × Cursor) := do
  let (header, c) :=
    match c.peek.bind chompingOf? with
    | some chomping =>
      match c.next.peek.bind incrementOf? with
      | some increment => ({ chomping, increment := some increment : BlockHeader }, c.skip 2)
      | none => ({ chomping }, c.next)
    | none =>
      match c.peek.bind incrementOf? with
      | some increment =>
        match c.next.peek.bind chompingOf? with
        | some chomping => ({ chomping, increment := some increment }, c.skip 2)
        | none => ({ increment := some increment }, c.next)
      | none => ({}, c)
  if header.increment == some 0 || !endsField c.peek then .error (.problem .blockHeader)
  else .ok (header, c)

/-- Skips the rest of a line, which may hold spaces and a comment. -/
def skipLine? (c : Cursor) : Option Cursor :=
  let c := c.skipSpaces.skipComment
  if endsLine c.peek then some c.skipBreak else none

/-- The header of a block text, with the end of its line. -/
def readHeader (c : Cursor) : Except Fault (BlockHeader × Cursor) := do
  let (header, c) ← readIndicators c
  match skipLine? c with
  | some c => .ok (header, c)
  | none => .error (.problem .blockHeader)

/-- The empty lines at the start of a block text, the greatest column that a space among them
ends at, and the place behind them. -/
def leadingBreaks (fuel : Nat) (breaks : List Char) (deepest : Nat) (c : Cursor) :
    List Char × Nat × Cursor :=
  match fuel with
  | 0 => (breaks.reverse, deepest, c)
  | fuel + 1 =>
    match c.lineBreak? with
    | some (ch, c) => leadingBreaks fuel (ch :: breaks) deepest c
    | none =>
      if c.peek == some ' ' then leadingBreaks fuel breaks (max deepest c.next.column) c.next
      else (breaks.reverse, deepest, c)

/-- The empty lines inside a block text; the indentation in front of each is skipped. -/
def innerBreaks (indent : Nat) (fuel : Nat) (breaks : List Char) (c : Cursor) :
    List Char × Cursor :=
  match fuel with
  | 0 => (breaks.reverse, c)
  | fuel + 1 =>
    let c := c.skipIndent indent
    match c.lineBreak? with
    | some (ch, c) => innerBreaks indent fuel (ch :: breaks) c
    | none => (breaks.reverse, c)

/-- Whether a line of the text is here. -/
def atBlockLine (indent : Nat) (c : Cursor) : Bool := c.column == indent && !c.rest.isEmpty

/-- What stands between two lines of a block text, given the line end and the empty lines between
them. If lines are joined, a line feed between two lines that start with no space becomes a space,
or nothing before an empty line. -/
def lineSeparator (folded : Bool) (lineEnd : List Char) (breaks : List Char)
    (startsWithSpace nextStartsWithSpace : Bool) : List Char :=
  if folded && lineEnd == ['\n'] && !startsWithSpace && !nextStartsWithSpace then
    if breaks.isEmpty then [' '] else []
  else lineEnd

/-- The line ends that stay at the end of a block text. -/
def chompedEnd (chomping : Chomping) (lineEnd breaks : List Char) : List Char :=
  match chomping with
  | .clip => lineEnd
  | .strip => []
  | .keep => lineEnd ++ breaks

/-- The lines of a block text from a place on, after the pieces `read`, of which the last comes
first. Before each line come the empty lines in front of it. -/
def blockLines (folded : Bool) (chomping : Chomping) (indent : Nat) (fuel : Nat)
    (read : List (List Char)) (breaks lineEnd : List Char) (c : Cursor) : List Char × Cursor :=
  match fuel with
  | 0 => ((chompedEnd chomping lineEnd breaks :: read).reverse.flatten, c)
  | fuel + 1 =>
    if atBlockLine indent c then
      let startsWithSpace := c.peek.any isSpaceOrTab
      let line := c.takeWhile fun ch => !isBreak ch
      let c := c.skipWhile fun ch => !isBreak ch
      let read := line :: breaks :: read
      let (lineEnd, c) :=
        match c.lineBreak? with
        | some (ch, c) => ([ch], c)
        | none => ([], c)
      let (breaks, c) := innerBreaks indent (c.rest.length + 1) [] c
      if atBlockLine indent c then
        let between := lineSeparator folded lineEnd breaks startsWithSpace
          (c.peek.any isSpaceOrTab)
        blockLines folded chomping indent fuel (between :: read) breaks lineEnd c
      else ((chompedEnd chomping lineEnd breaks :: read).reverse.flatten, c)
    else ((chompedEnd chomping lineEnd breaks :: read).reverse.flatten, c)

/-- The block text whose opening sign is here, inside a node with the given indentation. -/
def readBlock (folded : Bool) (surroundings : Nat) (c : Cursor) :
    Except Fault (String × Cursor) := do
  let (header, c) ← readHeader c.next
  let least := max surroundings 1
  let (breaks, indent, c) :=
    match header.increment with
    | some increment =>
      let indent := least + increment - 1
      let (breaks, c) := innerBreaks indent (c.rest.length + 1) [] c
      (breaks, indent, c)
    | none =>
      let (breaks, deepest, c) := leadingBreaks (c.rest.length + 1) [] 0 c
      (breaks, max least deepest, c)
  let (read, c) :=
    blockLines folded header.chomping indent (c.rest.length + 1) [] breaks [] c
  return (String.ofList read, c)

end DocSchema.Yaml
