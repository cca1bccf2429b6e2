import DocSchema.Number.Spelling
import DocSchema.Text.Utf8
import DocSchema.Yaml.Cursor
import DocSchema.Yaml.Fault
import DocSchema.Yaml.Token

/-!
# Tags, anchors and directives

The tokens that open with a sign of their own: a tag with an exclamation mark, an anchor with an
ampersand, an alias with an asterisk and a directive with a percent sign.
-/

namespace DocSchema.Yaml

/-- The bytes of a run of escapes of two digits. -/
def escapedBytes (fuel : Nat) (c : Cursor) : Option (List UInt8 × Cursor) :=
  match fuel with
  | 0 => none
  | fuel + 1 =>
    match c.rest with
    | '%' :: a :: b :: _ => do
      let value := (← Text.hexDigit? a) * 16 + (← Text.hexDigit? b)
      let (more, c) ← escapedBytes fuel (c.skip 3)
      return (value.toUInt8 :: more, c)
    | '%' :: _ => none
    | _ => some ([], c)

/-- The rest of a tag, after the pieces `read`, of which the last comes first. -/
def tagBody (fuel : Nat) (read : List (List Char)) (c : Cursor) : Option (List Char × Cursor) :=
  match fuel with
  | 0 => none
  | fuel + 1 =>
    match c.peek with
    | none => some (read.reverse.flatten, c)
    | some ch =>
      if ch = '%' then do
        let (bytes, c) ← escapedBytes (c.rest.length + 1) c
        let text ← Text.decodeUtf8? bytes
        tagBody fuel (text.toList :: read) c
      else if isTagChar ch then tagBody fuel ([ch] :: read) c.next
      else some (read.reverse.flatten, c)

/-- The characters of a tag, of which there is at least one. -/
def readTagText (c : Cursor) : Except Fault (String × Cursor) :=
  if c.peek.any isTagChar then
    match tagBody (c.rest.length + 1) [] c with
    | some (read, c) => .ok (String.ofList read, c)
    | none => .error (.problem .tagForm)
  else .error (.problem .tagForm)

/-- A handle: an exclamation mark, or a name between two of them. -/
def readHandle (c : Cursor) : Except Fault (String × Cursor) :=
  if c.peek == some '!' then
    let name := c.next.takeWhile isNameChar
    let behind := c.next.skipWhile isNameChar
    if c.peekAt 1 == some ' ' then .ok ("!", c.next)
    else if behind.peek == some '!' then
      .ok (String.ofList ('!' :: (name ++ ['!'])), behind.next)
    else .error (.problem .tagForm)
  else .error (.problem .tagForm)

/-- Whether the word at a place holds an exclamation mark. -/
def hasSecondMark (cs : List Char) : Bool :=
  (cs.takeWhile fun ch => !endsField (some ch)).contains '!'

/-- The tag whose exclamation mark is here. -/
def readTag (c : Cursor) : Except Fault (TagToken × Cursor) := do
  let (tag, c) ←
    if c.peekAt 1 == some '<' then do
      let (suffix, c) ← readTagText (c.skip 2)
      if c.peek == some '>' then pure ({ handle := none, suffix : TagToken }, c.next)
      else .error (.problem .tagForm)
    else if endsWord (c.peekAt 1) then pure ({ handle := none, suffix := "!" }, c.next)
    else do
      let (handle, c) ← if hasSecondMark c.next.rest then readHandle c else pure ("!", c.next)
      let (suffix, c) ← readTagText c
      pure ({ handle := some handle, suffix }, c)
  if endsField c.peek then return (tag, c) else .error (.problem .tagForm)

/-- Whether an anchor or alias may end in front of a character. -/
def endsAnchor : Option Char → Bool
  | none => true
  | some ch => isSpacing ch || "?:,]\x7d%@`".toList.contains ch

/-- The name of the anchor or alias whose sign is here. -/
def readAnchor (c : Cursor) : Except Fault (String × Cursor) :=
  let name := c.next.takeWhile isNameChar
  let behind := c.next.skipWhile isNameChar
  if !name.isEmpty && endsAnchor behind.peek then .ok (String.ofList name, behind)
  else .error (.problem .anchorName)

/-- A number of a version. -/
def readVersionNumber (c : Cursor) : Except Fault (Nat × Cursor) :=
  let digits := c.takeWhile Char.isDigit
  if digits.isEmpty then .error (.problem .directive)
  else .ok (Number.Binary64.digitsValue digits, c.skipWhile Char.isDigit)

/-- What stands behind the name of a directive. -/
def readDirectiveBody (name : String) (c : Cursor) : Except Fault (Directive × Cursor) :=
  if name = "YAML" then do
    let (major, c) ← readVersionNumber c.skipSpaces
    if c.peek == some '.' then
      let (_, c) ← readVersionNumber c.next
      if endsField c.peek then return (.version major, c) else .error (.problem .directive)
    else .error (.problem .directive)
  else if name = "TAG" then do
    let (handle, c) ← readHandle c.skipSpaces
    if c.peek == some ' ' then
      let (expansion, c) ← readTagText c.skipSpaces
      if endsField c.peek then return (.tagHandle handle expansion, c)
      else .error (.problem .directive)
    else .error (.problem .directive)
  else .ok (.other, c.skipWhile fun ch => !isBreak ch)

/-- The directive whose percent sign is here, with the end of its line. -/
def readDirective (c : Cursor) : Except Fault (Directive × Cursor) := do
  let name := c.next.takeWhile isNameChar
  let behind := c.next.skipWhile isNameChar
  if name.isEmpty || !endsField behind.peek then .error (.problem .directive)
  else
    let (directive, c) ← readDirectiveBody (String.ofList name) behind
    let c := c.skipSpaces.skipComment
    if endsLine c.peek then return (directive, c.skipBreak) else .error (.problem .directive)

end DocSchema.Yaml
