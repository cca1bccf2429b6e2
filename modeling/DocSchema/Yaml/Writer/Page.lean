import DocSchema.Text.Hex
import DocSchema.Yaml.Writer.Style

/-!
# The page that is written on

A page is the text written so far with what matters for what comes next: the column, and whether
the last thing written was spacing or indentation. Long texts are cut at spaces once the line has
more than eighty columns.

## Main definitions

* `Page`, `Page.write`, `Page.indentTo`, `Page.sign`
* `Page.scalar`: writes a scalar
-/

namespace DocSchema.Yaml

/-- A text that is being written. -/
structure Page where
  /-- The pieces written so far, the last one first. -/
  pieces : List (List Char) := []
  column : Nat := 0
  /-- Whether spacing was written last. -/
  afterSpace : Bool := true
  /-- Whether the line holds nothing but indentation and signs of lists and mappings. -/
  atIndent : Bool := true
  deriving Repr

namespace Page

/-- The greatest column that is not too far right. -/
def width : Nat := 80

/-- The text of a page. -/
def text (p : Page) : String := String.ofList p.pieces.reverse.flatten

/-- Writes characters of one line. -/
def write (cs : List Char) (p : Page) : Page :=
  { p with pieces := cs :: p.pieces, column := p.column + cs.length }

/-- Ends the line. -/
def breakLine (p : Page) : Page :=
  { pieces := ['\n'] :: p.pieces, column := 0, afterSpace := true, atIndent := true }

/-- Moves to a column of a line that holds nothing behind it yet. -/
def indentTo (column : Nat) (p : Page) : Page :=
  let p :=
    if !p.atIndent || column < p.column || (p.column == column && !p.afterSpace) then p.breakLine
    else p
  if p.column < column then
    { p.write (List.replicate (column - p.column) ' ') with afterSpace := true }
  else p

/-- Writes a sign, with a space in front of it if one is needed. -/
def sign (cs : List Char) (needsSpace : Bool) (spaceBehind keepsIndent : Bool) (p : Page) : Page :=
  let cs := if p.afterSpace || !needsSpace then cs else ' ' :: cs
  { p.write cs with afterSpace := spaceBehind, atIndent := p.atIndent && keepsIndent }

/-- Marks the end of a piece of text. -/
def inText (p : Page) : Page := { p with afterSpace := false, atIndent := false }

/-! ## Plain texts -/

/-- A text as words: each is a run of spaces with the run of other characters behind it. -/
def splitWords (fuel : Nat) (cs : List Char) : List (List Char × List Char) :=
  match fuel with
  | 0 => []
  | fuel + 1 =>
    if cs.isEmpty then []
    else
      let spaces := cs.takeWhile (· == ' ')
      let rest := cs.dropWhile (· == ' ')
      (spaces, rest.takeWhile (· != ' ')) :: splitWords fuel (rest.dropWhile (· != ' '))

/-- Writes words. A single space between two of them may become a new line. -/
def words (indent : Nat) (split : Bool) (isFirst : Bool) :
    List (List Char × List Char) → Page → Page
  | [], p => p
  | (spaces, word) :: rest, p =>
    let p :=
      if spaces.length == 1 && width < p.column && split && !isFirst && !word.isEmpty then
        (p.indentTo indent).inText
      else p.write spaces
    words indent split false rest (p.write word)

/-- Writes a plain text. -/
def plain (indent : Nat) (split : Bool) (cs : List Char) (p : Page) : Page :=
  let p := if p.afterSpace then p else p.write [' ']
  words indent split true (splitWords (cs.length + 1) cs) p.inText

/-! ## Single quotes -/

/-- Writes the part of a single quoted text that is left. The flag says whether nothing has been
written yet. -/
def singleBody (indent : Nat) (split : Bool) (isFirst : Bool) (fuel : Nat) (cs : List Char)
    (p : Page) : Page :=
  match fuel with
  | 0 => p
  | fuel + 1 =>
    match cs with
    | [] => p
    | '\n' :: _ =>
      let breaks := cs.takeWhile (· == '\n')
      let p := breaks.foldl (fun p _ => p.breakLine) p.breakLine
      singleBody indent split false fuel (cs.dropWhile (· == '\n')) (p.indentTo indent)
    | ' ' :: _ =>
      let spaces := cs.takeWhile (· == ' ')
      let rest := cs.dropWhile (· == ' ')
      let p :=
        if spaces.length == 1 && width < p.column && split && !isFirst && !rest.isEmpty then
          p.indentTo indent
        else p.write spaces
      singleBody indent split false fuel rest p
    | '\'' :: rest => singleBody indent split false fuel rest (p.write ['\'', '\''])
    | c :: rest => singleBody indent split false fuel rest (p.write [c])

/-- Writes a text between single quotes. -/
def single (indent : Nat) (split : Bool) (cs : List Char) (p : Page) : Page :=
  let p := p.sign ['\''] true false false
  (singleBody indent split true (cs.length + 1) cs p).sign ['\''] false false false

/-! ## Double quotes -/

/-- The letters of escapes. -/
def escapeLetters : List (Nat × Char) :=
  [(0, '0'), (7, 'a'), (8, 'b'), (9, 't'), (10, 'n'), (11, 'v'), (12, 'f'), (13, 'r'), (27, 'e'),
   (34, '"'), (92, '\\'), (0x85, 'N'), (0xA0, '_'), (0x2028, 'L'), (0x2029, 'P')]

/-- Whether a character between double quotes needs an escape. -/
def isEscaped (c : Char) : Bool :=
  c == '"' || c == '\\' || !(32 ≤ c.toNat && c.toNat ≤ 126)

/-- The digits of an escape. -/
def upperHex (width n : Nat) : List Char := (Text.hexChars width n).map Char.toUpper

/-- The escape of a character. -/
def escape (c : Char) : List Char :=
  let n := c.toNat
  match escapeLetters.find? fun entry => entry.1 == n with
  | some (_, letter) => ['\\', letter]
  | none =>
    if n ≤ 0xFF then '\\' :: 'x' :: upperHex 2 n
    else if n ≤ 0xFFFF then '\\' :: 'u' :: upperHex 4 n
    else '\\' :: 'U' :: upperHex 8 n

/-- Writes what is left of a double quoted text, of which `waiting` characters, the last one
first, have been taken and not written. A line that is too long may be cut in front of a space and
behind an escape, whose last column does not count, but neither in front of the first character
nor of the last one. -/
def doubleBody (indent : Nat) (split : Bool) (isFirst : Bool) (waiting : List Char) :
    List Char → Page → Page
  | [], p => p.write waiting.reverse
  | c :: rest, p =>
    let (p, waiting, isWritten) :=
      if isEscaped c then ((p.write waiting.reverse).write (escape c), [], true)
      else (p, waiting, waiting.isEmpty)
    let mayCut := !isFirst && !rest.isEmpty && split && (c == ' ' || isWritten)
    let reach := if isEscaped c then p.column - 1 else p.column + waiting.length
    if mayCut && width < reach then
      let p := (((p.write waiting.reverse).write ['\\']).indentTo indent).inText
      if isEscaped c then
        let p := if rest.head? == some ' ' then p.write ['\\'] else p
        doubleBody indent split false [] rest p
      else
        let p := if c == ' ' then p.write ['\\'] else p
        doubleBody indent split false [c] rest p
    else doubleBody indent split false (if isEscaped c then [] else c :: waiting) rest p

/-- Writes a text between double quotes. -/
def double (indent : Nat) (split : Bool) (cs : List Char) (p : Page) : Page :=
  let p := p.sign ['"'] true false false
  (doubleBody indent split true [] cs p).sign ['"'] false false false

/-! ## Blocks -/

/-- Writes the lines of a text, each of which ends in a line feed. -/
def blockBody (indent : Nat) : List Char → Page → Page
  | [], p => p
  | '\n' :: rest, p => blockBody indent rest p.breakLine
  | c :: rest, p =>
    let p := if p.column = 0 then p.indentTo indent else p
    blockBody indent rest (p.write [c])

/-- Writes a text as a block of lines. -/
def block (indent : Nat) (cs : List Char) (p : Page) : Page :=
  blockBody indent cs (p.sign ['|'] true false false).breakLine

/-! ## Scalars -/

/-- Writes the tag with a short name. -/
def tag (name : String) (p : Page) : Page := p.sign ("!!".toList ++ name.toList) true false false

/-- Writes a scalar, whose further lines start at the given column. -/
def scalar (indent : Nat) (isKey : Bool) (w : WrittenScalar) (p : Page) : Page :=
  let style := w.style isKey
  let p := if w.writesTag style then p.tag w.tag else p
  let cs := w.text.toList
  match style with
  | .plain => p.plain indent (!isKey) cs
  | .single => p.single indent (!isKey) cs
  | .double => p.double indent (!isKey) cs
  | .block => p.block indent cs

end Page

end DocSchema.Yaml
