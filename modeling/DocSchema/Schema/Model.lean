import DocSchema.Json
import DocSchema.Text.Lowercase

/-!
# The schema of a data model

A schema lists the entities of an application, each stored in a collection of its own, and the
roles of its users.

## Main definitions

* `Field`, `Relationship`, `Entity`, `Role`, `Schema`
* `Entity.collection`: the collection that holds an entity

Types of fields and of relationships are free text. The types that the program knows have a name
here.
-/

namespace DocSchema

/-- What a field says about the owner of a record. -/
inductive Ownership
  /-- The field names the owner, for access rules and for indexes. -/
  | owner
  /-- The field names the owner for access rules only. -/
  | accessOwner
  /-- The field says nothing about an owner. -/
  | none
  deriving DecidableEq, Repr

/-- The text of an ownership tag. -/
def Ownership.tag : Ownership → String
  | owner => "owner"
  | accessOwner => "access_owner"
  | none => "none"

/-- All ownership tags. -/
def Ownership.all : List Ownership := [.owner, .accessOwner, .none]

/-- The ownership with a given tag. -/
def Ownership.ofTag? (tag : String) : Option Ownership :=
  Ownership.all.find? fun ownership => ownership.tag == tag

/-- The type of a field that has none. -/
def textType : String := "text"

/-- The type of a field that holds a moment in time. -/
def timestampType : String := "timestamp"

/-- The types of fields whose content may be of any size. -/
def nestedTypes : List String := ["array", "object"]

/-- One field of an entity. -/
structure Field where
  name : String
  type : String := textType
  required : Bool := false
  default : Json := .null
  /-- The tag that the schema gives, if it gives one. -/
  ownership : Option Ownership := Option.none
  deriving Repr

/-- A link from an entity to another one through a field. -/
structure Relationship where
  type : String
  targetEntity : String
  viaField : String
  deriving DecidableEq, Repr

/-- One kind of record. -/
structure Entity where
  name : String
  /-- The name of the collection, if the schema gives one. -/
  collectionName : Option String := none
  fields : List Field := []
  relationships : List Relationship := []
  indexSpecs : List (List String) := []
  deriving Repr

/-- The collection that holds an entity: the given one, unless it is empty, or the name of the
entity in lower case with an `s` at its end. -/
def Entity.collection (e : Entity) : String :=
  match e.collectionName with
  | some name => if name = "" then Text.lower e.name ++ "s" else name
  | none => Text.lower e.name ++ "s"

/-- A role of users. -/
structure Role where
  role : String
  permissions : List String := []
  description : Option String := none
  deriving DecidableEq, Repr

/-- A data model: its entities and the roles of its users. -/
structure Schema where
  entities : List Entity := []
  roles : List Role := []
  deriving Repr

end DocSchema
