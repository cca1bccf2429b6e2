import DocSchema.Yaml.Cursor
import DocSchema.Yaml.Token.Quoted

/-!
# Plain texts

A plain text has no quotes. It ends before a comment and before a colon that ends a word, inside
brackets also before a comma or bracket, and outside of them before a line that is not indented
enough. Line ends inside it fold as in quoted texts. A tab ends it, too.

## Main definitions

* `startsPlain`: whether a plain text starts at a place
* `readPlain`: the plain text at a place
-/

namespace DocSchema.Yaml

/-- Characters that open no plain text on their own. -/
def indicators : List Char := "-?:,[]\x7b\x7d#&*!|>'\"%@`".toList

/-- Whether a plain text starts at a place. Three of the indicators open one if a word goes on
behind them, two of these outside of brackets only. -/
def startsPlain (inFlow : Bool) (c : Cursor) : Bool :=
  match c.peek with
  | none => false
  | some ch =>
    (!isSpacing ch && !indicators.contains ch)
      || (!endsWord (c.peekAt 1) && (ch == '-' || (!inFlow && (ch == '?' || ch == ':'))))

/-- Whether a plain text ends before a character that is followed by the given text. -/
def endsPlain (inFlow : Bool) (ch : Char) (rest : List Char) : Bool :=
  isSpacing ch
    || (ch == ':' && (endsWord rest.head? || (inFlow && rest.head?.any isFlowIndicator)))
    || (inFlow && (ch == '?' || isFlowIndicator ch))

/-- The number of characters up to the end of a plain text or the next space. -/
def plainLength (inFlow : Bool) : List Char → Nat
  | [] => 0
  | ch :: rest => if endsPlain inFlow ch rest then 0 else plainLength inFlow rest + 1

/-- The line ends after a first one and the spaces between them, up to a line that separates
documents. Gives the line ends, the place behind them and whether such a line was met. -/
def plainBreaks (fuel : Nat) (c : Cursor) : List Char × Cursor × Bool :=
  match fuel with
  | 0 => ([], c, false)
  | fuel + 1 =>
    let c := c.skipSpaces
    match c.lineBreak? with
    | some (ch, c) =>
      if c.atSeparator then ([], c, true)
      else
        let (more, c, separated) := plainBreaks fuel c
        (ch :: more, c, separated)
    | none => ([], c, false)

/-- What the spaces and line ends behind a part of a plain text stand for, the place behind them,
and whether there was a line end. They stand for nothing where documents are separated. -/
def plainSpacing (c : Cursor) : List Char × Cursor × Bool :=
  let spaces := c.takeWhile (· == ' ')
  let c := c.skipSpaces
  match c.lineBreak? with
  | some (ch, c) =>
    if c.atSeparator then ([], c, true)
    else
      let (breaks, c, separated) := plainBreaks (c.rest.length + 1) c
      (if separated then [] else foldLine ch breaks, c, true)
  | none => (spaces, c, false)

/-- The rest of a plain text, after the pieces `read`, of which the last comes first, and the
spacing behind them. The flag says whether the text so far ended with the end of a line. -/
def plainBody (inFlow : Bool) (indent : Nat) (fuel : Nat) (read : List (List Char))
    (spacing : List Char) (ended : Bool) (c : Cursor) : List Char × Cursor × Bool :=
  match fuel with
  | 0 => (read.reverse.flatten, c, ended)
  | fuel + 1 =>
    let count := if c.peek == some '#' then 0 else plainLength inFlow c.rest
    if count = 0 then (read.reverse.flatten, c, ended)
    else
      let read := c.rest.take count :: spacing :: read
      let (spacing, c, ended) := plainSpacing (c.skip count)
      if spacing.isEmpty || c.peek == some '#' || (!inFlow && c.column < indent) then
        (read.reverse.flatten, c, ended)
      else plainBody inFlow indent fuel read spacing ended c

/-- The plain text at a place, the place behind it and the spacing that follows, and whether that
spacing holds the end of a line. Lines that go on have at least the given indentation. -/
def readPlain (inFlow : Bool) (indent : Nat) (c : Cursor) : String × Cursor × Bool :=
  let (read, c, ended) := plainBody inFlow indent (c.rest.length + 1) [] [] false c
  (String.ofList read, c, ended)

end DocSchema.Yaml
