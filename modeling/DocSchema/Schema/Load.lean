import DocSchema.Schema.Fault
import DocSchema.Schema.Model
import DocSchema.Value

/-!
# From document values to schemas

A schema is read from a document value in document order, and the first fault ends the reading.

Several keys have a second spelling. The first spelling whose value is not null counts, whatever
the other holds. A list that is missing or null is empty. Where a text belongs a number is taken
by its spelling; a truth value is not.

## Main definitions

* `Json.ofValue`: the JSON form of a value, in which dates become text
* `Schema.ofValue`: the schema of a document
-/

namespace DocSchema

open Value (lookup)

/-- The entries of a mapping in a document. -/
abbrev Entries := List (Value × Value)

namespace Entries

/-- The value under a key, or null. -/
def get (entries : Entries) (key : String) : Value := (lookup key entries).getD .null

/-- The value under the first of two keys that holds something other than null. -/
def firstPresent (entries : Entries) (key otherKey : String) : Value :=
  match entries.get key with
  | .null => entries.get otherKey
  | value => value

end Entries

/-! ## Kinds of values -/

/-- A mapping. -/
def readMapping (location : String) (value : Value) : Except SchemaFault Entries :=
  match value with
  | .map entries => .ok entries
  | _ => .error (.unexpected location .mapping)

/-- The items of a list; null is the empty list. -/
def readList (location : String) (value : Value) : Except SchemaFault (List Value) :=
  match value with
  | .null => .ok []
  | value =>
    match value.items? with
    | some items => .ok items
    | none => .error (.unexpected location .list)

/-- A text, or the spelling of a number. -/
def readText (location : String) (value : Value) : Except SchemaFault String :=
  match value.text? with
  | some s => .ok s
  | none => .error (.unexpected location .text)

/-- A text that may be missing. -/
def readOptionalText (location : String) (value : Value) : Except SchemaFault (Option String) :=
  match value with
  | .null => .ok none
  | value => (readText location value).map some

/-- A truth value; null is false. -/
def readBoolean (location : String) (value : Value) : Except SchemaFault Bool :=
  match value with
  | .null => .ok false
  | .bool b => .ok b
  | _ => .error (.unexpected location .boolean)

/-- An ownership tag that may be missing. -/
def readOwnership (location : String) (value : Value) : Except SchemaFault (Option Ownership) :=
  match value with
  | .null => .ok none
  | .text tag =>
    match Ownership.ofTag? tag with
    | some ownership => .ok (some ownership)
    | none => .error (.unexpected location .ownership)
  | _ => .error (.unexpected location .ownership)

/-- Reads the items of a list one after the other, from a position on. -/
def readEach {α : Type} (read : String → Value → Except SchemaFault α) (location : String) :
    Nat → List Value → Except SchemaFault (List α)
  | _, [] => .ok []
  | position, value :: values => do
    let first ← read (itemLocation location position) value
    let rest ← readEach read location (position + 1) values
    return first :: rest

/-- Reads a list and its items. -/
def readItems {α : Type} (read : String → Value → Except SchemaFault α) (location : String)
    (value : Value) : Except SchemaFault (List α) := do
  let items ← readList location value
  readEach read location 0 items

/-! ## Defaults -/

namespace Json

mutual

/-- The JSON form of a value. Dates become text, and so do the keys of mappings, of which a later
one replaces the value of an earlier one with the same text. -/
def ofValue (location : String) : Value → Except SchemaFault Json
  | .null => .ok .null
  | .bool b => .ok (.bool b)
  | .int n => .ok (.int n)
  | .float x => .ok (.float x)
  | .text s => .ok (.text s)
  | .date d => .ok (.text d.iso)
  | .datetime t => .ok (.text t.iso)
  | .bytes _ => .error (.unexpected location .json)
  | .list items => (ofItems location 0 items).map .list
  | .tuple items => (ofItems location 0 items).map .list
  | .set _ => .error (.unexpected location .json)
  | .map entries => (ofEntries location entries).map fun members =>
    .object (Assoc.ofList (· == ·) members)

/-- The JSON forms of the items of a list, from a position on. -/
def ofItems (location : String) (position : Nat) : List Value → Except SchemaFault (List Json)
  | [] => .ok []
  | value :: values => do
    let first ← ofValue (itemLocation location position) value
    let rest ← ofItems location (position + 1) values
    return first :: rest

/-- The JSON forms of the entries of a mapping. -/
def ofEntries (location : String) :
    List (Value × Value) → Except SchemaFault (List (String × Json))
  | [] => .ok []
  | (key, value) :: entries => do
    let first ← ofValue (memberLocation location key.display) value
    let rest ← ofEntries location entries
    return (key.display, first) :: rest

end

end Json

/-! ## Parts of a schema -/

/-- The name of an entity or field. -/
def readName (location : String) (entries : Entries) : Except SchemaFault String :=
  match lookup "name" entries with
  | none => .error (.nameless location)
  | some value => readText (memberLocation location "name") value

/-- The type of a field; a field without one holds text. -/
def readFieldType (location : String) (value : Value) : Except SchemaFault String :=
  match value with
  | .null => .ok textType
  | value => readText location value

/-- A field. -/
def Field.ofValue (location : String) (value : Value) : Except SchemaFault Field := do
  let node ← readMapping location value
  let name ← readName location node
  let type ← readFieldType (memberLocation location "type") (node.get "type")
  let required ← readBoolean (memberLocation location "required") (node.get "required")
  let default ← Json.ofValue (memberLocation location "default") (node.get "default")
  let ownership ← readOwnership (memberLocation location "ownership") (node.get "ownership")
  return { name, type, required, default, ownership }

/-- A text under one of two keys, empty if nothing is given. -/
def readLink (location : String) (value : Value) : Except SchemaFault String :=
  readText location (if value.isTruthy then value else .text "")

/-- A relationship. -/
def Relationship.ofValue (location : String) (value : Value) :
    Except SchemaFault Relationship := do
  let node ← readMapping location value
  let type ← readText (memberLocation location "type") ((lookup "type" node).getD (.text ""))
  let targetEntity ← readLink (memberLocation location "targetEntity")
    (node.firstPresent "targetEntity" "model")
  let viaField ← readLink (memberLocation location "viaField")
    (node.firstPresent "viaField" "field")
  return { type, targetEntity, viaField }

/-- An entity. -/
def Entity.ofValue (location : String) (value : Value) : Except SchemaFault Entity := do
  let node ← readMapping location value
  let name ← readName location node
  let collectionName ← readOptionalText (memberLocation location "collectionName")
    (node.firstPresent "collectionName" "collection")
  let fields ← readItems Field.ofValue (memberLocation location "fields") (node.get "fields")
  let relationships ← readItems Relationship.ofValue (memberLocation location "relationships")
    (node.get "relationships")
  let indexSpecs ← readItems (readItems readText) (memberLocation location "indexSpecs")
    (node.firstPresent "indexSpecs" "indexes")
  return { name, collectionName, fields, relationships, indexSpecs }

/-- A role. The list of permissions is looked at before the name of the role, and its items
after it. -/
def Role.ofValue (location : String) (value : Value) : Except SchemaFault Role := do
  let node ← readMapping location value
  let items ← readList (memberLocation location "permissions") (node.get "permissions")
  let role ← readText (memberLocation location "role") ((lookup "role" node).getD (.text ""))
  let permissions ← readEach readText (memberLocation location "permissions") 0 items
  let description ← readOptionalText (memberLocation location "description")
    (node.get "description")
  return { role, permissions, description }

/-- The entries of a document; an empty document has none. -/
def readRoot : Value → Except SchemaFault Entries
  | .null => .ok []
  | .map entries => .ok entries
  | _ => .error .root

/-- The schema of a document. -/
def Schema.ofValue (value : Value) : Except SchemaFault Schema := do
  let root ← readRoot value
  let entityItems ← readList "entities" (root.firstPresent "entities" "dataModels")
  let roleItems ← readList "roles" (root.firstPresent "roles" "userRoles")
  let entities ← readEach Entity.ofValue "entities" 0 entityItems
  let roles ← readEach Role.ofValue "roles" 0 roleItems
  return { entities, roles }

end DocSchema
