import DocSchema.Assoc
import DocSchema.Yaml.Fault
import DocSchema.Yaml.Node
import DocSchema.Yaml.Token

/-!
# From tokens to nodes

The parser goes down the tree of a document. A node has properties, an anchor and a tag in either
order, and a content. A node without content is the absent node.

## Main definitions

* `Parser.node`: the node at the start of the tokens
* `Node.ofTokens?`: the document that tokens stand for, if there is one

## Implementation notes

The mutual functions go down a fuel of several steps for each token, which is more than the tokens
can ask for: between two calls on the same tokens the kind of the construct gets smaller.

An alias may stand inside the node that it names. Such a node is infinite, and the parser unrolls
it to a fixed depth: each round puts the nodes of the round before in the place of these aliases.
-/

namespace DocSchema.Yaml

/-- A node that has been named: itself, unless it is still being read. -/
abbrev Anchors := List (String × Option Node)

/-- What the parser knows apart from the tokens that are left. -/
structure Parser where
  /-- What the handles of tags stand for. -/
  handles : List (String × String)
  /-- The named nodes so far. -/
  anchors : Anchors := []
  /-- The named nodes of the round before. -/
  earlier : Anchors := []
  /-- Whether an alias was met inside the node that it names. -/
  recursive : Bool := false
  deriving Inhabited

/-- The properties of a node: its name, and the full text of its tag. -/
structure Properties where
  anchor : Option String := none
  tag : Option String := none

namespace Parser

/-- What a parser has read, the tokens that are left and what it knows now. -/
abbrev Parsed (α : Type) := α × List Token × Parser

/-- The problem of tokens that form no tree. -/
def arrangement {α : Type} : Except Fault α := .error (.problem .arrangement)

/-- The full text of a tag. -/
def fullTag (p : Parser) (t : TagToken) : Except Fault String :=
  match t.handle with
  | none => .ok t.suffix
  | some handle =>
    match Assoc.find? handle p.handles with
    | some expansion => .ok (expansion ++ t.suffix)
    | none => .error (.problem (.undefinedHandle handle))

/-- The properties at the start of the tokens. -/
def properties (p : Parser) (ts : List Token) : Except Fault (Properties × List Token) :=
  match ts with
  | .anchor name :: .tag t :: rest => do
    return ({ anchor := some name, tag := some (← p.fullTag t) }, rest)
  | .tag t :: .anchor name :: rest => do
    return ({ anchor := some name, tag := some (← p.fullTag t) }, rest)
  | .anchor name :: rest => .ok ({ anchor := some name }, rest)
  | .tag t :: rest => do return ({ tag := some (← p.fullTag t) }, rest)
  | ts => .ok ({}, ts)

/-- Notes that a named node is being read. -/
def announce (p : Parser) (props : Properties) : Except Fault Parser :=
  match props.anchor with
  | none => .ok p
  | some name =>
    match Assoc.find? name p.anchors with
    | some _ => .error (.problem (.duplicateAnchor name))
    | none => .ok { p with anchors := (name, none) :: p.anchors }

/-- Notes what a named node is. -/
def define (p : Parser) (props : Properties) (n : Node) : Parser :=
  match props.anchor with
  | none => p
  | some name => { p with anchors := Assoc.put (· == ·) name (some n) p.anchors }

/-- The node that an alias stands for. -/
def resolveAlias (p : Parser) (name : String) : Except Fault (Node × Parser) :=
  match Assoc.find? name p.anchors with
  | none => .error (.problem (.undefinedAlias name))
  | some (some n) => .ok (n, p)
  | some none =>
    match Assoc.find? name p.earlier with
    | some (some n) => .ok (n, { p with recursive := true })
    | _ => .ok (.absent, { p with recursive := true })

/-- The tag of a text. -/
def scalarTag (props : Properties) (plain : Bool) (text : String) : Tag :=
  match props.tag with
  | none => if plain then Tag.ofPlain text else .text
  | some tag => if tag = "!" then Tag.ofPlain text else Tag.ofText tag

/-- The tag of a list or mapping. -/
def collectionTag (props : Properties) (standard : Tag) : Tag :=
  match props.tag with
  | none => standard
  | some tag => if tag = "!" then standard else Tag.ofText tag

/-- Whether a node of a block mapping ends before it has begun. -/
def endsMapNode : List Token → Bool
  | .key :: _ => true
  | .value :: _ => true
  | .blockEnd :: _ => true
  | _ => false

/-- Whether an entry of a block list ends before it has begun. -/
def endsListEntry : List Token → Bool
  | .entry :: _ => true
  | .blockEnd :: _ => true
  | _ => false

/-- Whether an entry of a list that is not indented ends before it has begun. -/
def endsFlatEntry (ts : List Token) : Bool :=
  match ts with
  | .entry :: _ => true
  | ts => endsMapNode ts

/-- Whether a key between brackets that end with the given token ends before it has begun. -/
def endsFlowKey (close : Token) : List Token → Bool
  | [] => false
  | t :: _ => t == .value || t == .comma || t == close

/-- Whether a value between brackets that end with the given token ends before it has begun. -/
def endsFlowValue (close : Token) : List Token → Bool
  | [] => false
  | t :: _ => t == .comma || t == close

/-- Skips the comma in front of every entry but the first one between brackets that end with the
given token. -/
def skipComma (close : Token) (isFirst : Bool) (ts : List Token) : Except Fault (List Token) :=
  match ts with
  | [] => arrangement
  | t :: rest =>
    if t == close || isFirst then .ok ts
    else if t == .comma then .ok rest
    else arrangement

mutual

/-- A node. Outside of brackets it may be a block node, and in a block mapping it may be a list
that is not indented. -/
def node (block flat : Bool) (fuel : Nat) (p : Parser) (ts : List Token) :
    Except Fault (Parsed Node) :=
  match fuel with
  | 0 => arrangement
  | fuel + 1 =>
    match ts with
    | .reference name :: rest => do
      let (n, p) ← p.resolveAlias name
      return (n, rest, p)
    | ts => do
      let (props, ts) ← p.properties ts
      let p ← p.announce props
      let (n, ts, p) ← content block flat props fuel p ts
      return (n, ts, p.define props n)

/-- The content of a node with the given properties. -/
def content (block flat : Bool) (props : Properties) (fuel : Nat) (p : Parser)
    (ts : List Token) : Except Fault (Parsed Node) :=
  match fuel with
  | 0 => arrangement
  | fuel + 1 =>
    match ts with
    | .scalar plain text :: rest => .ok (.scalar (scalarTag props plain text) text, rest, p)
    | .flowListStart :: rest => do
      let (items, ts, p) ← flowItems true fuel p rest
      return (.list (collectionTag props .list) items, ts, p)
    | .flowMapStart :: rest => do
      let (entries, ts, p) ← flowEntries true fuel p rest
      return (.map (collectionTag props .map) entries, ts, p)
    | ts => blockContent block flat props fuel p ts

/-- The content of a node that may be a block node. -/
def blockContent (block flat : Bool) (props : Properties) (fuel : Nat) (p : Parser)
    (ts : List Token) : Except Fault (Parsed Node) :=
  match fuel with
  | 0 => arrangement
  | fuel + 1 =>
    match ts, block, flat with
    | .entry :: _, _, true => do
      let (items, ts, p) ← flatItems fuel p ts
      return (.list (collectionTag props .list) items, ts, p)
    | .blockListStart :: rest, true, _ => do
      let (items, ts, p) ← blockItems fuel p rest
      return (.list (collectionTag props .list) items, ts, p)
    | .blockMapStart :: rest, true, _ => do
      let (entries, ts, p) ← blockEntries fuel p rest
      return (.map (collectionTag props .map) entries, ts, p)
    | ts, _, _ =>
      if props.anchor.isSome || props.tag.isSome then
        .ok (.scalar (scalarTag props true "") "", ts, p)
      else arrangement

/-- The items of a block list up to its end. -/
def blockItems (fuel : Nat) (p : Parser) (ts : List Token) : Except Fault (Parsed (List Node)) :=
  match fuel with
  | 0 => arrangement
  | fuel + 1 =>
    match ts with
    | .entry :: rest => do
      let (item, ts, p) ←
        if endsListEntry rest then .ok (.absent, rest, p) else node true false fuel p rest
      let (items, ts, p) ← blockItems fuel p ts
      return (item :: items, ts, p)
    | .blockEnd :: rest => .ok ([], rest, p)
    | _ => arrangement

/-- The items of a list that is not indented. -/
def flatItems (fuel : Nat) (p : Parser) (ts : List Token) : Except Fault (Parsed (List Node)) :=
  match fuel with
  | 0 => arrangement
  | fuel + 1 =>
    match ts with
    | .entry :: rest => do
      let (item, ts, p) ←
        if endsFlatEntry rest then .ok (.absent, rest, p) else node true false fuel p rest
      let (items, ts, p) ← flatItems fuel p ts
      return (item :: items, ts, p)
    | ts => .ok ([], ts, p)

/-- The entries of a block mapping up to its end. -/
def blockEntries (fuel : Nat) (p : Parser) (ts : List Token) :
    Except Fault (Parsed (List (Node × Node))) :=
  match fuel with
  | 0 => arrangement
  | fuel + 1 =>
    match ts with
    | .key :: rest => do
      let (key, ts, p) ←
        if endsMapNode rest then .ok (.absent, rest, p) else node true true fuel p rest
      let (value, ts, p) ← blockValue fuel p ts
      let (entries, ts, p) ← blockEntries fuel p ts
      return ((key, value) :: entries, ts, p)
    | .blockEnd :: rest => .ok ([], rest, p)
    | _ => arrangement

/-- The value of an entry of a block mapping. -/
def blockValue (fuel : Nat) (p : Parser) (ts : List Token) : Except Fault (Parsed Node) :=
  match fuel with
  | 0 => arrangement
  | fuel + 1 =>
    match ts with
    | .value :: rest =>
      if endsMapNode rest then .ok (.absent, rest, p) else node true true fuel p rest
    | ts => .ok (.absent, ts, p)

/-- The items of a list between brackets up to its end. An item may be a mapping of one entry
without braces. -/
def flowItems (isFirst : Bool) (fuel : Nat) (p : Parser) (ts : List Token) :
    Except Fault (Parsed (List Node)) :=
  match fuel with
  | 0 => arrangement
  | fuel + 1 => do
    let ts ← skipComma .flowListEnd isFirst ts
    match ts with
    | .flowListEnd :: rest => return ([], rest, p)
    | .key :: rest =>
      let (key, ts, p) ←
        if endsFlowKey .flowListEnd rest then .ok (.absent, rest, p)
        else node false false fuel p rest
      let (value, ts, p) ← flowValue .flowListEnd fuel p ts
      let (items, ts, p) ← flowItems false fuel p ts
      return (.map .map [(key, value)] :: items, ts, p)
    | ts =>
      let (item, ts, p) ← node false false fuel p ts
      let (items, ts, p) ← flowItems false fuel p ts
      return (item :: items, ts, p)

/-- The entries of a mapping between braces up to its end. An entry may be a key alone. -/
def flowEntries (isFirst : Bool) (fuel : Nat) (p : Parser) (ts : List Token) :
    Except Fault (Parsed (List (Node × Node))) :=
  match fuel with
  | 0 => arrangement
  | fuel + 1 => do
    let ts ← skipComma .flowMapEnd isFirst ts
    match ts with
    | .flowMapEnd :: rest => return ([], rest, p)
    | .key :: rest =>
      let (key, ts, p) ←
        if endsFlowKey .flowMapEnd rest then .ok (.absent, rest, p)
        else node false false fuel p rest
      let (value, ts, p) ← flowValue .flowMapEnd fuel p ts
      let (entries, ts, p) ← flowEntries false fuel p ts
      return ((key, value) :: entries, ts, p)
    | ts =>
      let (key, ts, p) ← node false false fuel p ts
      let (entries, ts, p) ← flowEntries false fuel p ts
      return ((key, .absent) :: entries, ts, p)

/-- The value of an entry between brackets that end with the given token. -/
def flowValue (close : Token) (fuel : Nat) (p : Parser) (ts : List Token) :
    Except Fault (Parsed Node) :=
  match fuel with
  | 0 => arrangement
  | fuel + 1 =>
    match ts with
    | .value :: rest =>
      if endsFlowValue close rest then .ok (.absent, rest, p)
      else node false false fuel p rest
    | ts => .ok (.absent, ts, p)

end

/-! ## Documents -/

/-- The handles that every document knows. -/
def standardHandles : List (String × String) := [("!", "!"), ("!!", Tag.schemaText)]

/-- The directives in front of a document: whether there was a version, and the handles. -/
def directives (versioned : Bool) (handles : List (String × String)) :
    List Token → Except Fault (List (String × String) × List Token)
  | .directive (.version major) :: rest =>
    if versioned || major != 1 then .error (.problem .version)
    else directives true handles rest
  | .directive (.tagHandle handle expansion) :: rest =>
    if (Assoc.find? handle handles).isSome then .error (.problem .version)
    else directives versioned ((handle, expansion) :: handles) rest
  | .directive .other :: rest => directives versioned handles rest
  | ts => .ok (handles, ts)

/-- Whether a document ends before it has begun. -/
def endsDocument : List Token → Bool
  | [] => true
  | .directive _ :: _ => true
  | .documentStart :: _ => true
  | .documentEnd :: _ => true
  | _ => false

/-- Demands that nothing follows the document but marks of its end. -/
def atEnd (ts : List Token) : Bool := ts.all (· == .documentEnd)

/-- One round over the tokens of a text. -/
def round (earlier : Anchors) (ts : List Token) : Except Fault (Option Node × Parser) := do
  let fuel := 4 * ts.length + 8
  let standard : Parser := { handles := standardHandles, earlier }
  match ts with
  | [] => return (none, standard)
  | .directive _ :: _ | .documentStart :: _ =>
    let (handles, ts) ← directives false [] ts
    match ts with
    | .documentStart :: rest =>
      let p : Parser := { handles := handles ++ standardHandles, earlier }
      let (n, ts, p) ←
        if endsDocument rest then .ok (.absent, rest, p) else node true false fuel p rest
      if atEnd ts then return (some n, p) else .error (.problem .severalDocuments)
    | _ => arrangement
  | ts =>
    let (n, ts, p) ← node true false fuel standard ts
    if atEnd ts then return (some n, p) else .error (.problem .severalDocuments)

/-- Further rounds over the tokens of a text. -/
def rounds : Nat → Anchors → List Token → Except Fault (Option Node)
  | 0, earlier, ts => (round earlier ts).map Prod.fst
  | n + 1, earlier, ts => do
    let (_, p) ← round earlier ts
    rounds n p.anchors ts

/-- How often a node that holds itself is unrolled. -/
def unrolling : Nat := 6

end Parser

/-- The document that tokens stand for, if there is one. -/
def Node.ofTokens? (ts : List Token) : Except Fault (Option Node) := do
  let (n, p) ← Parser.round [] ts
  if p.recursive then Parser.rounds Parser.unrolling p.anchors ts else return n

end DocSchema.Yaml
