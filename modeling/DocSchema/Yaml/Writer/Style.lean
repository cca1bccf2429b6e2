import DocSchema.Yaml.Character
import DocSchema.Yaml.Tag

/-!
# Styles of written scalars

A text is written plain if it then reads back as the same text, else between single quotes if
these can hold it, else between double quotes. Written texts are ASCII: any other character, and
any control character but the line feed, asks for an escape and so for double quotes.

## Main definitions

* `WrittenScalar`: a text with the tag of what it denotes
* `ScalarStyle`, `WrittenScalar.style`
-/

namespace DocSchema.Yaml

/-- How a scalar is written. -/
inductive ScalarStyle
  | plain
  | single
  | double
  /-- The lines of the text below a sign. -/
  | block
  deriving DecidableEq, Repr

/-- A scalar to be written: the short name of its tag and its text. -/
structure WrittenScalar where
  tag : String
  text : String
  /-- Whether a block of lines is preferred. -/
  preferBlock : Bool := false
  deriving DecidableEq, Repr

/-- Whether a character needs an escape. -/
def needsEscape (c : Char) : Bool := !(c == '\n' || (32 ≤ c.toNat && c.toNat ≤ 126))

/-- Whether some two neighbours are related. -/
def hasNeighbours (related : Char → Char → Bool) : List Char → Bool
  | a :: b :: rest => related a b || hasNeighbours related (b :: rest)
  | _ => false

/-- Whether a word ends in front of the rest of a text. -/
def wordEndsBefore (rest : List Char) : Bool := endsWord rest.head?

/-- Whether a text opens with a sign that would mean something else. -/
def opensWithIndicator (cs : List Char) : Bool :=
  match cs with
  | [] => false
  | c :: rest =>
    "#,[]\x7b\x7d&*!|>'\"%@`".toList.contains c
      || ((c == '?' || c == ':' || c == '-') && wordEndsBefore rest)
      || "---".toList.isPrefixOf cs || "...".toList.isPrefixOf cs

/-- Whether a sign inside a text would mean something else: a colon at the end of a word, or a
number sign at the start of one. -/
def holdsIndicator : List Char → Bool
  | a :: b :: rest =>
    (b == ':' && wordEndsBefore rest) || (b == '#' && isSpacing a) || holdsIndicator (b :: rest)
  | _ => false

/-- Whether a text starts or ends with a space or a line end. -/
def hasOuterSpace (cs : List Char) : Bool :=
  cs.head?.any (fun c => c == ' ' || isBreak c) || cs.getLast?.any fun c => c == ' ' || isBreak c

/-- Whether a text has several lines. A carriage return is escaped and starts none. -/
def isMultiline (cs : List Char) : Bool := cs.any fun c => isBreak c && c != '\r'

/-- Whether a text can be written plain. -/
def canBePlain (cs : List Char) : Bool :=
  !cs.isEmpty && !cs.any needsEscape && !isMultiline cs && !hasOuterSpace cs
    && !opensWithIndicator cs && !holdsIndicator cs

/-- Whether a text can be written between single quotes. -/
def canBeSingle (cs : List Char) : Bool :=
  !cs.any needsEscape
    && !hasNeighbours (fun a b => (a == ' ' && b == '\n') || (a == '\n' && b == ' ')) cs

/-- Whether a text can be written as a block of lines. -/
def canBeBlock (cs : List Char) : Bool :=
  !cs.isEmpty && !cs.any needsEscape && cs.getLast? != some ' '
    && !hasNeighbours (fun a b => a == ' ' && b == '\n') cs

namespace WrittenScalar

/-- The text of the full tag. -/
def fullTag (w : WrittenScalar) : String := Tag.schemaText ++ w.tag

/-- Whether the text has the tag by its form alone. -/
def isImplicit (w : WrittenScalar) : Bool := Tag.ofPlain w.text == Tag.ofText w.fullTag

/-- Whether the scalar denotes a text. -/
def isText (w : WrittenScalar) : Bool := w.tag == "str"

/-- The style of a scalar, on one line if it is a key. -/
def style (w : WrittenScalar) (isKey : Bool) : ScalarStyle :=
  let cs := w.text.toList
  if !w.preferBlock && w.isImplicit && canBePlain cs then .plain
  else if w.preferBlock && !isKey && canBeBlock cs then .block
  else if !w.preferBlock && canBeSingle cs && !(isKey && isMultiline cs) then .single
  else .double

/-- Whether the tag is written in front of the scalar. -/
def writesTag (w : WrittenScalar) (style : ScalarStyle) : Bool :=
  if style = .plain then !w.isImplicit else !w.isText

/-- Whether a scalar can be a key without a question mark: it is not empty, has one line, and is
shorter than 128 characters together with its tag. -/
def isSimpleKey (w : WrittenScalar) : Bool :=
  let cs := w.text.toList
  !cs.isEmpty && !isMultiline cs && w.tag.length + 2 + cs.length < 128

end WrittenScalar

end DocSchema.Yaml
