import DocSchema.Schema.Load

/-!
# The outline of a document

Every place of a document that a schema takes something from asks for a value of a certain kind.
The outline lists these places in their order, each with what it asks for and what is there. It
says nothing of a reading: a place is listed whether or not the places in front of it hold what
they should. Only a value that has no parts, such as a text where a mapping belongs, has no places
below it.

The places of an entity or of a role follow each other, and so do those of a default, in front of
the places below them. At the top of the document both lists come before the items of either, and
the list of permissions of a role comes before the name of the role.

## Main definitions

* `Demand`, with `Demand.admits` for the values that it admits
* `Place`, with `Place.fault?` for what is wrong with the value there
* `outline`: the places of a document
* `misfits`: everything that is wrong with a list of places
-/

namespace DocSchema

/-! ## Kinds of values -/

namespace Value

/-- Nothing. -/
def isNull : Value → Bool
  | null => true
  | _ => false

/-- A mapping. -/
def isMap : Value → Bool
  | map _ => true
  | _ => false

/-- A list, a tuple or bytes, which count as a list of integers. -/
def isListed : Value → Bool
  | list _ | tuple _ | bytes _ => true
  | _ => false

/-- A text or a number, but no truth value. -/
def isTextual : Value → Bool
  | text _ | int _ | float _ => true
  | _ => false

/-- A text. -/
def isText : Value → Bool
  | text _ => true
  | _ => false

/-- Bytes. -/
def isBytes : Value → Bool
  | bytes _ => true
  | _ => false

/-- A truth value. -/
def isBool : Value → Bool
  | bool _ => true
  | _ => false

/-- Anything but bytes and sets; the parts of a list or mapping do not matter. -/
def isJson : Value → Bool
  | bytes _ | set _ => false
  | _ => true

/-- The tag of an ownership. -/
def isOwnershipTag : Value → Bool
  | text tag => tag ∈ ["owner", "access_owner", "none"]
  | _ => false

/-- A mapping that has a name. -/
def isNamed : Value → Bool
  | map entries => (lookup "name" entries).isSome
  | _ => false

end Value

/-! ## Places -/

/-- What a place asks for. -/
inductive Demand
  /-- A document. -/
  | document
  | mapping
  /-- A mapping with a name. -/
  | named
  | list
  | text
  /-- A text that may be missing. -/
  | optionalText
  /-- A text in whose place anything empty, zero or false stands for the empty text. -/
  | link
  | boolean
  | json
  | ownership
  deriving DecidableEq, Repr

/-- Whether a value is what is asked for. -/
def Demand.admits (value : Value) : Demand → Bool
  | document => value.isNull || value.isMap
  | mapping => value.isMap
  | named => value.isNamed
  | list => value.isNull || value.isListed
  | text => value.isTextual
  | optionalText => value.isNull || value.isTextual
  | link => !value.isTruthy || value.isTextual
  | boolean => value.isNull || value.isBool
  | json => value.isJson
  | ownership => value.isNull || value.isOwnershipTag

/-- A place of a document with what it asks for and what is there. -/
structure Place where
  location : String
  demand : Demand
  value : Value
  deriving Repr

namespace Place

/-- The fault of a place where something else stands than what is asked for. -/
def fault (p : Place) : SchemaFault :=
  match p.demand with
  | .document => .root
  | .mapping => .unexpected p.location .mapping
  | .named => .nameless p.location
  | .list => .unexpected p.location .list
  | .text | .optionalText | .link => .unexpected p.location .text
  | .boolean => .unexpected p.location .boolean
  | .json => .unexpected p.location .json
  | .ownership => .unexpected p.location .ownership

/-- What is wrong at a place. -/
def fault? (p : Place) : Option SchemaFault :=
  if p.demand.admits p.value then none else some p.fault

end Place

/-- Everything that is wrong at some places, in their order. -/
def misfits (places : List Place) : List SchemaFault := places.filterMap Place.fault?

/-! ## Outlines -/

/-- The places of the items of a list. -/
def itemPlaces (places : String → Value → List Place) (location : String) (value : Value) :
    List Place :=
  (value.items?.getD []).zipIdx.flatMap fun (item, position) =>
    places (itemLocation location position) item

/-- The place of a list, and those of its items. -/
def listPlaces (places : String → Value → List Place) (location : String) (value : Value) :
    List Place :=
  ⟨location, .list, value⟩ :: itemPlaces places location value

/-- The place of a text. -/
def textPlaces (location : String) (value : Value) : List Place := [⟨location, .text, value⟩]

/-- The place of the name of an entity or field. -/
def namePlaces (location : String) (node : Entries) : List Place :=
  ⟨location, .named, .map node⟩ ::
    ((Value.lookup "name" node).map (textPlaces (memberLocation location "name"))).getD []

namespace Json

mutual

/-- The places of a default. -/
def places (location : String) : Value → List Place
  | .list items => ⟨location, .json, .list items⟩ :: placesOfItems location 0 items
  | .tuple items => ⟨location, .json, .tuple items⟩ :: placesOfItems location 0 items
  | .map entries => ⟨location, .json, .map entries⟩ :: placesOfEntries location entries
  | value => [⟨location, .json, value⟩]

/-- The places of the items of a default, from a position on. -/
def placesOfItems (location : String) (position : Nat) : List Value → List Place
  | [] => []
  | value :: values =>
    places (itemLocation location position) value ++ placesOfItems location (position + 1) values

/-- The places of the entries of a default. -/
def placesOfEntries (location : String) : List (Value × Value) → List Place
  | [] => []
  | (key, value) :: entries =>
    places (memberLocation location key.display) value ++ placesOfEntries location entries

end

end Json

/-- The place of a mapping, and the places of its parts. -/
def mappingPlaces (places : Entries → List Place) (location : String) (value : Value) :
    List Place :=
  ⟨location, .mapping, value⟩ :: (value.entries?.map places).getD []

/-- The places of a field. -/
def Field.places (location : String) : Value → List Place :=
  mappingPlaces (fun node =>
    namePlaces location node ++
      [⟨memberLocation location "type", .optionalText, node.get "type"⟩,
        ⟨memberLocation location "required", .boolean, node.get "required"⟩] ++
      Json.places (memberLocation location "default") (node.get "default") ++
      [⟨memberLocation location "ownership", .ownership, node.get "ownership"⟩]) location

/-- The places of a relationship. -/
def Relationship.places (location : String) : Value → List Place :=
  mappingPlaces (fun node =>
    [⟨memberLocation location "type", .text, (Value.lookup "type" node).getD (.text "")⟩,
      ⟨memberLocation location "targetEntity", .link, node.firstPresent "targetEntity" "model"⟩,
      ⟨memberLocation location "viaField", .link, node.firstPresent "viaField" "field"⟩]) location

/-- The places of an entity. -/
def Entity.places (location : String) : Value → List Place :=
  mappingPlaces (fun node =>
    namePlaces location node ++
      [⟨memberLocation location "collectionName", .optionalText,
        node.firstPresent "collectionName" "collection"⟩] ++
      listPlaces Field.places (memberLocation location "fields") (node.get "fields") ++
      listPlaces Relationship.places (memberLocation location "relationships")
        (node.get "relationships") ++
      listPlaces (listPlaces textPlaces) (memberLocation location "indexSpecs")
        (node.firstPresent "indexSpecs" "indexes")) location

/-- The places of a role. -/
def Role.places (location : String) : Value → List Place :=
  mappingPlaces (fun node =>
    [⟨memberLocation location "permissions", .list, node.get "permissions"⟩,
      ⟨memberLocation location "role", .text, (Value.lookup "role" node).getD (.text "")⟩] ++
      itemPlaces textPlaces (memberLocation location "permissions") (node.get "permissions") ++
      [⟨memberLocation location "description", .optionalText, node.get "description"⟩]) location

/-- The places of a document. -/
def outline (value : Value) : List Place :=
  ⟨"", .document, value⟩ :: (value.entries?.map rootPlaces).getD []
where
  /-- The places of the parts of a document. -/
  rootPlaces (root : Entries) : List Place :=
    [⟨"entities", .list, root.firstPresent "entities" "dataModels"⟩,
      ⟨"roles", .list, root.firstPresent "roles" "userRoles"⟩] ++
      itemPlaces Entity.places "entities" (root.firstPresent "entities" "dataModels") ++
      itemPlaces Role.places "roles" (root.firstPresent "roles" "userRoles")

end DocSchema
