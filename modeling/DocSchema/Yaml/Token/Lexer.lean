import DocSchema.Yaml.Token.Block
import DocSchema.Yaml.Token.Plain
import DocSchema.Yaml.Token.Quoted
import DocSchema.Yaml.Token.Tag

/-!
# From text to tokens

The lexer goes over a text once. It keeps the indentations of the block nodes that it is in and
closes them when a line is indented less.

A key of a mapping is seen as one only when its colon comes. So a *slot* is left in front of
everything that may be a key, and the lexer notes which slots turned out to be keys and whether
they open a mapping. `resolveSlots` then puts the tokens in.

## Main definitions

* `Lexer`, `Lexer.step`
* `resolveSlots`
* `tokens`: the tokens of a text

## Implementation notes

Something may be a key as long as the line has not ended and at most 1024 characters have passed.
A key is demanded where a line of a block mapping starts: a slot there that is given up is a
problem.
-/

namespace DocSchema.Yaml

/-- A token, or a slot for a key. -/
inductive Slotted
  | token (t : Token)
  | slot (id : Nat)
  deriving DecidableEq, Repr

/-- Something that may turn out to be a key. -/
structure PendingKey where
  id : Nat
  required : Bool
  index : Nat
  line : Nat
  column : Nat
  deriving DecidableEq, Repr

/-- The state of the lexer. -/
structure Lexer where
  cursor : Cursor
  /-- What has been read, the last first. -/
  read : List Slotted := []
  /-- The slots that are keys, and whether they open a mapping. -/
  keys : List (Nat × Bool) := []
  /-- The number of slots so far. -/
  slots : Nat := 0
  /-- The column of each block node that is open, the innermost first. -/
  indents : List Nat := []
  /-- The number of brackets that are open. -/
  depth : Nat := 0
  /-- Whether a key may start here. -/
  keyAllowed : Bool := true
  /-- What may turn out to be a key, at most one for each depth. -/
  pending : List (Nat × PendingKey) := []
  done : Bool := false
  deriving Repr

namespace Lexer

/-- The least indentation of what belongs to the innermost block node. -/
def nextIndent (l : Lexer) : Nat :=
  match l.indents with
  | [] => 0
  | column :: _ => column + 1

/-- Whether brackets are open. -/
def inFlow (l : Lexer) : Bool := l.depth != 0

/-- Adds a token. -/
def push (l : Lexer) (t : Token) : Lexer := { l with read := .token t :: l.read }

/-- Whether a pending key is out of reach at a place. -/
def isStale (c : Cursor) (key : PendingKey) : Bool :=
  key.line != c.line || 1024 < c.index - key.index

/-- Gives up the pending keys that are out of reach. -/
def dropStale (l : Lexer) : Except Fault Lexer :=
  if l.pending.any fun (_, key) => isStale l.cursor key && key.required then
    .error (.problem .missingColon)
  else .ok { l with pending := l.pending.filter fun (_, key) => !isStale l.cursor key }

/-- Gives up the pending key of the current depth. -/
def dropPending (l : Lexer) : Except Fault Lexer :=
  if (Assoc.find? l.depth l.pending).any PendingKey.required then
    .error (.problem .missingColon)
  else .ok { l with pending := l.pending.filter fun (depth, _) => depth != l.depth }

/-- Leaves a slot, if a key may start here. -/
def leaveSlot (l : Lexer) : Except Fault Lexer :=
  if l.keyAllowed then do
    let l ← l.dropPending
    let c := l.cursor
    let key : PendingKey :=
      { id := l.slots
        required := !l.inFlow && l.indents.head? == some c.column
        index := c.index
        line := c.line
        column := c.column }
    return { l with
      read := .slot l.slots :: l.read
      slots := l.slots + 1
      pending := (l.depth, key) :: l.pending }
  else .ok l

/-- Whether a block node may be opened at a column. -/
def opensAt (l : Lexer) (column : Nat) : Bool := l.nextIndent ≤ column

/-- Opens a block node at a column with its token, if it is indented more than the innermost. -/
def openBlock (l : Lexer) (column : Nat) (t : Token) : Lexer :=
  if l.opensAt column then { l with indents := column :: l.indents }.push t else l

/-- Closes the block nodes whose column is greater than the given one. -/
def closeBlocks (l : Lexer) (isInner : Nat → Bool) : Lexer :=
  if l.inFlow then l
  else
    let closed := l.indents.takeWhile isInner
    { l with
      indents := l.indents.dropWhile isInner
      read := closed.map (fun _ => .token .blockEnd) ++ l.read }

/-- Skips spaces, comments and line ends up to the next token. -/
def skipToToken (fuel : Nat) (l : Lexer) : Lexer :=
  match fuel with
  | 0 => l
  | fuel + 1 =>
    let c := l.cursor.skipSpaces.skipComment
    match c.lineBreak? with
    | some (_, c) =>
      skipToToken fuel { l with cursor := c, keyAllowed := l.keyAllowed || !l.inFlow }
    | none => { l with cursor := c }

/-- A sign of one character. -/
def sign (l : Lexer) (t : Token) : Lexer := { l with cursor := l.cursor.next }.push t

/-- The end of the text. -/
def finish (l : Lexer) : Except Fault Lexer := do
  let l ← (l.closeBlocks fun _ => true).dropPending
  return { l with keyAllowed := false, pending := [], done := true }

/-- A directive. -/
def directive (l : Lexer) : Except Fault Lexer := do
  let l ← (l.closeBlocks fun _ => true).dropPending
  let (d, c) ← readDirective l.cursor
  return { l with keyAllowed := false, cursor := c }.push (.directive d)

/-- A line that separates documents. -/
def separator (l : Lexer) (t : Token) : Except Fault Lexer := do
  let l ← (l.closeBlocks fun _ => true).dropPending
  return { l with keyAllowed := false, cursor := l.cursor.skip 3 }.push t

/-- An opening bracket. -/
def openFlow (l : Lexer) (t : Token) : Except Fault Lexer := do
  let l ← l.leaveSlot
  return { l with depth := l.depth + 1, keyAllowed := true }.sign t

/-- A closing bracket. -/
def closeFlow (l : Lexer) (t : Token) : Except Fault Lexer := do
  let l ← l.dropPending
  return { l with depth := l.depth - 1, keyAllowed := false }.sign t

/-- A comma. -/
def comma (l : Lexer) : Except Fault Lexer := do
  let l ← l.dropPending
  return { l with keyAllowed := true }.sign .comma

/-- The hyphen of a list entry. -/
def entry (l : Lexer) : Except Fault Lexer :=
  if !l.inFlow && !l.keyAllowed then .error (.problem .misplacedEntry)
  else do
    let l := if l.inFlow then l else l.openBlock l.cursor.column .blockListStart
    let l ← l.dropPending
    return { l with keyAllowed := true }.sign .entry

/-- The question mark of a key. -/
def explicitKey (l : Lexer) : Except Fault Lexer :=
  if !l.inFlow && !l.keyAllowed then .error (.problem .misplacedKey)
  else do
    let l := if l.inFlow then l else l.openBlock l.cursor.column .blockMapStart
    let l ← l.dropPending
    return { l with keyAllowed := !l.inFlow }.sign .key

/-- Makes a pending key a key. -/
def confirm (l : Lexer) (key : PendingKey) : Lexer :=
  let opens := !l.inFlow && l.opensAt key.column
  { l with
    keys := (key.id, opens) :: l.keys
    indents := if opens then key.column :: l.indents else l.indents
    pending := l.pending.filter fun (depth, _) => depth != l.depth
    keyAllowed := false }

/-- The colon of a value. -/
def valueSign (l : Lexer) : Except Fault Lexer :=
  match Assoc.find? l.depth l.pending with
  | some key => .ok ((l.confirm key).sign .value)
  | none =>
    if !l.inFlow && !l.keyAllowed then .error (.problem .misplacedValue)
    else do
      let l := if l.inFlow then l else l.openBlock l.cursor.column .blockMapStart
      let l ← l.dropPending
      return { l with keyAllowed := !l.inFlow }.sign .value

/-- An anchor or alias. -/
def anchor (l : Lexer) (t : String → Token) : Except Fault Lexer := do
  let l ← l.leaveSlot
  let (name, c) ← readAnchor l.cursor
  return { l with keyAllowed := false, cursor := c }.push (t name)

/-- A tag. -/
def tag (l : Lexer) : Except Fault Lexer := do
  let l ← l.leaveSlot
  let (t, c) ← readTag l.cursor
  return { l with keyAllowed := false, cursor := c }.push (.tag t)

/-- A block text. -/
def block (l : Lexer) (folded : Bool) : Except Fault Lexer := do
  let l ← l.dropPending
  let (text, c) ← readBlock folded l.nextIndent l.cursor
  return { l with keyAllowed := true, cursor := c }.push (.scalar false text)

/-- A quoted text. -/
def quoted (l : Lexer) (double : Bool) : Except Fault Lexer := do
  let l ← l.leaveSlot
  let (text, c) ← readQuoted double l.cursor
  return { l with keyAllowed := false, cursor := c }.push (.scalar false text)

/-- A plain text. -/
def plain (l : Lexer) : Except Fault Lexer := do
  let l ← l.leaveSlot
  let (text, c, ended) := readPlain l.inFlow l.nextIndent l.cursor
  return { l with keyAllowed := ended, cursor := c }.push (.scalar true text)

/-- The token that starts with a character at the current place. -/
def tokenAt (l : Lexer) (ch : Char) : Except Fault Lexer :=
  let c := l.cursor
  let wordEnds := endsWord (c.peekAt 1)
  if ch == '%' && c.column == 0 then l.directive
  else if ch == '-' && c.column == 0 && c.atSeparator then l.separator .documentStart
  else if ch == '.' && c.column == 0 && c.atSeparator then l.separator .documentEnd
  else if ch == '[' then l.openFlow .flowListStart
  else if ch == '\x7b' then l.openFlow .flowMapStart
  else if ch == ']' then l.closeFlow .flowListEnd
  else if ch == '\x7d' then l.closeFlow .flowMapEnd
  else if ch == ',' then l.comma
  else if ch == '-' && wordEnds then l.entry
  else if ch == '?' && (l.inFlow || wordEnds) then l.explicitKey
  else if ch == ':' && (l.inFlow || wordEnds) then l.valueSign
  else if ch == '*' then l.anchor .reference
  else if ch == '&' then l.anchor .anchor
  else if ch == '!' then l.tag
  else if ch == '|' && !l.inFlow then l.block false
  else if ch == '>' && !l.inFlow then l.block true
  else if ch == '\'' then l.quoted false
  else if ch == '"' then l.quoted true
  else if startsPlain l.inFlow c then l.plain
  else .error (.problem .token)

/-- The next token, with what the indentation in front of it closes. -/
def step (l : Lexer) : Except Fault Lexer := do
  let l ← (l.skipToToken (l.cursor.rest.length + 1)).dropStale
  let l := l.closeBlocks fun column => l.cursor.column < column
  match l.cursor.peek with
  | none => l.finish
  | some ch => l.tokenAt ch

/-- All tokens up to the end of the text; `fuel` bounds their number. -/
def run (fuel : Nat) (l : Lexer) : Except Fault Lexer :=
  match fuel with
  | 0 => .error (.problem .token)
  | fuel + 1 => do
    let l ← l.step
    if l.done then return l else run fuel l

end Lexer

/-- Puts the tokens of keys into their slots. -/
def resolveSlots (keys : List (Nat × Bool)) : List Slotted → List Token
  | [] => []
  | .token t :: rest => t :: resolveSlots keys rest
  | .slot id :: rest =>
    match Assoc.find? id keys with
    | some true => .blockMapStart :: .key :: resolveSlots keys rest
    | some false => .key :: resolveSlots keys rest
    | none => resolveSlots keys rest

/-- The place where a text starts; a byte order mark there is skipped. -/
def textStart (cs : List Char) : Cursor :=
  match cs with
  | c :: rest => if c.toNat = 0xFEFF then { rest, index := 1 } else { rest := cs }
  | [] => { rest := [] }

/-- The tokens of a text. -/
def tokens (text : String) : Except Fault (List Token) :=
  let cs := text.toList
  if cs.all isPermitted then do
    let l ← Lexer.run (cs.length + 2) { cursor := textStart cs }
    return resolveSlots l.keys l.read.reverse
  else .error (.problem .character)

end DocSchema.Yaml
