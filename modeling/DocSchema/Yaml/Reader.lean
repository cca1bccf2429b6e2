import DocSchema.Yaml.Node.Parser
import DocSchema.Yaml.Scalar
import DocSchema.Yaml.Token.Lexer

/-!
# Reading YAML

A text is cut into tokens, the tokens form a tree of nodes, and each node denotes a value.

Of several faults in the tree the one that is least deep counts, and of these the first. The
contents of a list or mapping lie one level below it.

A mapping may take over the entries of others under the merge key. Entries of its own come after
these, and replace the values of equal keys.

## Main definitions

* `Node.value`: the value of a node with its faults
* `read`: the value of a text
-/

namespace DocSchema.Yaml

/-- Faults with their depth, in the order of the text. -/
abbrev Faults := List (Nat × Fault)

/-- The first of the faults that are least deep. -/
def firstFault? : Faults → Option (Nat × Fault)
  | [] => none
  | (depth, fault) :: rest =>
    match firstFault? rest with
    | some (other, later) => if other < depth then some (other, later) else some (depth, fault)
    | none => some (depth, fault)

/-- What the entries of a mapping denote: faults of its merge keys, then the entries that it takes
over and its own ones, each with their faults. -/
structure MapContent where
  shape : Faults := []
  merged : List (Value × Value) := []
  mergedFaults : Faults := []
  own : List (Value × Value) := []
  ownFaults : Faults := []

/-- The content of a mapping without entries. -/
def MapContent.empty : MapContent := {}

/-- All entries of a mapping in their order. -/
def MapContent.entries (m : MapContent) : List (Value × Value) := m.merged ++ m.own

/-- The faults of the entries of a mapping. -/
def MapContent.entryFaults (m : MapContent) : Faults := m.mergedFaults ++ m.ownFaults

/-- All faults of a mapping in their order. -/
def MapContent.faults (m : MapContent) : Faults := m.shape ++ m.entryFaults

/-- A mapping that also takes over the entries of another one, in front of those that it takes
over already. -/
def MapContent.takeOver (source m : MapContent) : MapContent :=
  { m with
    shape := source.shape ++ m.shape
    merged := source.entries ++ m.merged
    mergedFaults := source.entryFaults ++ m.mergedFaults }

/-- A mapping with one more entry in front of its own. -/
def MapContent.addEntry (key value : Value × Faults) (depth : Nat) (m : MapContent) :
    MapContent :=
  let keyFaults := if key.1.isKey then [] else [(depth, Fault.problem .unhashableKey)]
  { m with
    own := (key.1, value.1) :: m.own
    ownFaults := key.2 ++ keyFaults ++ value.2 ++ m.ownFaults }

/-- Whether a tag is one of a scalar. -/
def Tag.isScalar : Tag → Bool
  | null | bool | int | float | text | binary | timestamp => true
  | _ => false

namespace Node

/-- The text that a node gives for a scalar: its own, or the one of the main value of a
mapping. -/
def scalarText? : Node → Option String
  | .scalar _ text => some text
  | .list _ _ => none
  | .map _ entries => mainText? entries
where
  /-- The text of the first main value among the entries of a mapping. -/
  mainText? : List (Node × Node) → Option String
    | [] => none
    | (key, value) :: rest =>
      if key.tag = .mainValue then scalarText? value else mainText? rest

/-- The value of a scalar tag on any node. -/
def scalarValue (depth : Nat) (tag : Tag) (text : Option String) : Value × Faults :=
  match text with
  | none => (.null, [(depth, .problem .shape)])
  | some text =>
    match Scalar.value tag text with
    | .ok value => (value, [])
    | .error fault => (.null, [(depth, fault)])

/-- A node whose tag does not fit. It counts as an empty list, which is no key. -/
def misfit (depth : Nat) (p : Problem) : Value × Faults := (.list [], [(depth, .problem p)])

/-- The value of a text with a tag. -/
def textValue (depth : Nat) (tag : Tag) (text : String) : Value × Faults :=
  match tag with
  | .list | .map | .set | .pairs => misfit (depth + 1) .shape
  | tag => scalarValue depth tag (some text)

/-- A key that is the sign of the main value is a text where it stands in a mapping. -/
def keyTag (tag : Tag) : Tag := if tag = .mainValue then .text else tag

mutual

/-- The value of a node at a depth, with its faults. A node with faults has some value. -/
def value (depth : Nat) : Node → Value × Faults
  | .scalar tag text => textValue depth tag text
  | .list tag items =>
    match tag with
    | .list =>
      let (values, faults) := itemValues (depth + 1) items
      (.list values, faults)
    | .pairs =>
      let (values, faults) := pairs (depth + 1) items
      (.list values, faults)
    | .map | .set => misfit (depth + 1) .shape
    | tag => misfit depth (if tag.isScalar then .shape else .unknownTag)
  | .map tag entries =>
    match tag with
    | .map =>
      let content := entryValues (depth + 1) entries
      (.mapping content.entries, content.faults)
    | .set =>
      let content := entryValues (depth + 1) entries
      (.set ((Assoc.ofList Value.sameKey content.entries).map Prod.fst), content.faults)
    | .list | .pairs => misfit (depth + 1) .shape
    | tag =>
      if tag.isScalar then scalarValue depth tag (scalarText?.mainText? entries)
      else misfit depth .unknownTag

/-- The values of the items of a list. -/
def itemValues (depth : Nat) : List Node → List Value × Faults
  | [] => ([], [])
  | n :: ns =>
    let (first, faults) := value depth n
    let (rest, more) := itemValues depth ns
    (first :: rest, faults ++ more)

/-- The pairs of a list of mappings with one entry each. -/
def pairs (depth : Nat) : List Node → List Value × Faults
  | [] => ([], [])
  | .map _ [(k, v)] :: ns =>
    let (key, keyFaults) := value depth k
    let (value, valueFaults) := value depth v
    let (rest, more) := pairs depth ns
    (.tuple [key, value] :: rest, keyFaults ++ valueFaults ++ more)
  | _ :: ns =>
    let (rest, more) := pairs depth ns
    (rest, (depth, .problem .shape) :: more)

/-- What the entries of a mapping denote. -/
def entryValues (depth : Nat) : List (Node × Node) → MapContent
  | [] => .empty
  | (k, v) :: rest =>
    let more := entryValues depth rest
    if k.tag = .merge then
      match v with
      | .map _ inner => (entryValues depth inner).takeOver more
      | .list _ sources => (sourceValues depth sources).takeOver more
      | .scalar _ _ => { more with shape := (depth, .problem .mergeSource) :: more.shape }
    else
      let key := match k with
        | .scalar tag text => textValue depth (keyTag tag) text
        | k => value depth k
      more.addEntry key (value depth v) depth

/-- What is taken over from the mappings of a list: the entries of the last one come first, so
that those of the first one count. -/
def sourceValues (depth : Nat) : List Node → MapContent
  | [] => .empty
  | .map _ inner :: rest =>
    let first := entryValues depth inner
    let more := sourceValues depth rest
    { shape := first.shape ++ more.shape
      merged := more.merged ++ first.entries
      mergedFaults := more.mergedFaults ++ first.entryFaults }
  | _ :: rest =>
    let more := sourceValues depth rest
    { more with shape := (depth, .problem .mergeSource) :: more.shape }

end

end Node

/-- The value of a document, unless it has a fault. -/
def Node.toValue (n : Node) : Except Fault Value :=
  match n.value 0 with
  | (value, faults) =>
    match firstFault? faults with
    | some (_, fault) => .error fault
    | none => .ok value

/-- The value of a text; a text without a document is null. -/
def read (text : String) : Except Fault Value := do
  let ts ← tokens text
  match ← Node.ofTokens? ts with
  | some n => n.toValue
  | none => return .null

end DocSchema.Yaml
