import DocSchema.Text.Base64
import DocSchema.Value
import DocSchema.Yaml.Writer.Page

/-!
# Writing YAML

A value is written in block form, with its lists and mappings indented by two columns a level. A
list that is the value of a key is not indented, and a key that is too long, empty or of several
lines gets a question mark. Empty lists and mappings are written as brackets.

## Main definitions

* `write`: the text of a value
-/

namespace DocSchema.Yaml

open Number (Binary64)

namespace Writer

/-- A floating point number, with a point in every decimal. -/
def floatText : Binary64 → String
  | .nan => ".nan"
  | .infinite negative => if negative then "-.inf" else ".inf"
  | x =>
    let cs := x.chars
    let mantissa := cs.takeWhile (· != 'e')
    if mantissa.contains '.' then String.ofList cs
    else String.ofList (mantissa ++ '.' :: '0' :: cs.dropWhile (· != 'e'))

/-- Bytes in base 64 on lines of 76 characters. -/
def binaryLines (fuel : Nat) (cs : List Char) : List Char :=
  match fuel with
  | 0 => []
  | fuel + 1 =>
    if cs.isEmpty then [] else cs.take 76 ++ '\n' :: binaryLines fuel (cs.drop 76)

/-- The written form of bytes. -/
def binaryText (bytes : List UInt8) : String :=
  let cs := Text.encodeBase64 bytes
  String.ofList (binaryLines (cs.length + 1) cs)

/-- The scalar of a value that is neither list nor mapping. -/
def scalar? : Value → Option WrittenScalar
  | .null => some ⟨"null", "null", false⟩
  | .bool b => some ⟨"bool", if b then "true" else "false", false⟩
  | .int n => some ⟨"int", toString n, false⟩
  | .float x => some ⟨"float", floatText x, false⟩
  | .text s => some ⟨"str", s, false⟩
  | .date d => some ⟨"timestamp", d.iso, false⟩
  | .datetime t => some ⟨"timestamp", t.isoWith " ", false⟩
  | .bytes content => some ⟨"binary", binaryText content, true⟩
  | .list _ | .tuple _ | .set _ | .map _ => none

/-- Where the contents of a node are written. -/
structure Place where
  /-- The column of the surrounding list or mapping, if there is one. -/
  indent : Option Nat := none
  /-- Whether the node is the key or value of a mapping. -/
  inMap : Bool := false

namespace Place

/-- The column of the further lines of a scalar. -/
def scalarIndent (place : Place) : Nat := (place.indent.map (· + 2)).getD 2

/-- The column of the entries of a mapping. -/
def mapIndent (place : Place) : Nat := (place.indent.map (· + 2)).getD 0

/-- The column of the items of a list. -/
def listIndent (place : Place) (p : Page) : Nat :=
  if place.inMap && !p.atIndent then place.indent.getD 0 else place.mapIndent

end Place

/-- Writes empty brackets. -/
def brackets (opening closing : Char) (p : Page) : Page :=
  (p.sign [opening] true true false).sign [closing] false false false

/-- The scalar of a key that needs no question mark. -/
def simpleKey? (key : Value) : Option WrittenScalar :=
  match scalar? key with
  | some w => if w.isSimpleKey then some w else none
  | none => none

mutual

/-- Writes a value at a place. -/
def value (place : Place) : Value → Page → Page
  | .list items, p =>
    if items.isEmpty then brackets '[' ']' p else itemLines (place.listIndent p) items p
  | .tuple items, p =>
    if items.isEmpty then brackets '[' ']' p else itemLines (place.listIndent p) items p
  | .map entries, p =>
    if entries.isEmpty then brackets '\x7b' '\x7d' p else entryLines place.mapIndent entries p
  | .set items, p =>
    let p := p.tag "set"
    if items.isEmpty then brackets '\x7b' '\x7d' p else memberLines place.mapIndent items p
  | v, p =>
    match scalar? v with
    | some w => p.scalar place.scalarIndent false w
    | none => p

/-- Writes the items of a list. -/
def itemLines (indent : Nat) : List Value → Page → Page
  | [], p => p
  | item :: items, p =>
    let p := (p.indentTo indent).sign ['-'] true false true
    itemLines indent items (value { indent := some indent } item p)

/-- Writes the entries of a mapping. -/
def entryLines (indent : Nat) : List (Value × Value) → Page → Page
  | [], p => p
  | (k, v) :: entries, p =>
    let p := p.indentTo indent
    let place : Place := { indent := some indent, inMap := true }
    let p :=
      match simpleKey? k with
      | some w => (p.scalar place.scalarIndent true w).sign [':'] false false false
      | none =>
        let p := value place k (p.sign ['?'] true false true)
        (p.indentTo indent).sign [':'] true false true
    entryLines indent entries (value place v p)

/-- Writes the members of a set, which are the keys of a mapping without values. -/
def memberLines (indent : Nat) : List Value → Page → Page
  | [], p => p
  | k :: members, p =>
    let p := p.indentTo indent
    let place : Place := { indent := some indent, inMap := true }
    let p :=
      match simpleKey? k with
      | some w => (p.scalar place.scalarIndent true w).sign [':'] false false false
      | none =>
        let p := value place k (p.sign ['?'] true false true)
        (p.indentTo indent).sign [':'] true false true
    memberLines indent members (p.scalar place.scalarIndent false ⟨"null", "null", false⟩)

end

/-- Whether a document consists of one plain text, which needs a mark of its end. -/
def isOpenEnded (v : Value) : Bool :=
  match scalar? v with
  | some w => w.style false == .plain
  | none => false

end Writer

/-- The text of a value. -/
def write (v : Value) : String :=
  let p := (Writer.value {} v {}).indentTo 0
  let p := if Writer.isOpenEnded v then (p.sign "...".toList true false false).indentTo 0 else p
  p.text

end DocSchema.Yaml
