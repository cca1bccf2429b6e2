import DocSchema.Schema.Fault
import DocSchema.Schema.Model
import DocSchema.Text.Blank

/-!
# Violations of a schema

A schema may be well-formed and still say nothing sensible: entities without a name, two entities
in one collection, fields without a name or with the name of another one, index specifications
without fields. `Schema.violations` lists all such places in the order of the schema.

## Main definitions

* `Violation`
* `Schema.violations`

## Implementation notes

One pass goes over the entities with the collections seen so far and who used them first, and for
each entity one pass over its fields with the names seen so far. An entity without a name claims
no collection.
-/

namespace DocSchema

/-- The kinds of violations. -/
inductive ViolationCode
  | emptyEntityName
  | emptyFieldName
  | duplicateFieldName
  | emptyIndexSpec
  | duplicateCollection
  deriving DecidableEq, Repr

/-- The written form of a kind. -/
def ViolationCode.text : ViolationCode → String
  | emptyEntityName => "EMPTY_ENTITY_NAME"
  | emptyFieldName => "EMPTY_FIELD_NAME"
  | duplicateFieldName => "DUPLICATE_FIELD_NAME"
  | emptyIndexSpec => "EMPTY_INDEX_SPEC"
  | duplicateCollection => "DUPLICATE_COLLECTION"

/-- A violation: its kind, the place in the schema and an explanation. -/
structure Violation where
  code : ViolationCode
  location : String
  message : String
  deriving DecidableEq, Repr

/-- A violation on one line. -/
def Violation.text (v : Violation) : String :=
  v.code.text ++ " at " ++ v.location ++ ": " ++ v.message

/-- The place of an entity. -/
def entityLocation (position : Nat) : String := itemLocation "entities" position

/-- The place of a field. -/
def fieldLocation (entity : String) (position : Nat) : String :=
  itemLocation (memberLocation entity "fields") position

/-- The place of an index specification. -/
def indexSpecLocation (entity : String) (position : Nat) : String :=
  itemLocation (memberLocation entity "indexSpecs") position

/-- How messages call an entity: by its name, or by its place if the name is empty. -/
def Entity.label (e : Entity) (location : String) : String :=
  if e.name = "" then location else e.name

/-! ## Fields and index specifications -/

/-- A field without a name. -/
def emptyFieldName (label location : String) : Violation where
  code := .emptyFieldName
  location := location
  message := label ++ ": field name must not be empty."

/-- A field with the name of an earlier one. -/
def duplicateFieldName (label location name : String) : Violation where
  code := .duplicateFieldName
  location := location
  message := label ++ ": field '" ++ name ++ "' is declared more than once."

/-- The violations of the fields from a position on, after fields with the names `seen`. -/
def fieldViolations (label entity : String) (seen : List String) :
    Nat → List Field → List Violation
  | _, [] => []
  | position, field :: fields =>
    let location := fieldLocation entity position
    if Text.isBlank field.name then
      emptyFieldName label location :: fieldViolations label entity seen (position + 1) fields
    else if seen.contains field.name then
      duplicateFieldName label location field.name
        :: fieldViolations label entity seen (position + 1) fields
    else fieldViolations label entity (field.name :: seen) (position + 1) fields

/-- The violations of the index specifications from a position on. -/
def indexSpecViolations (label entity : String) : Nat → List (List String) → List Violation
  | _, [] => []
  | position, spec :: specs =>
    (if spec.isEmpty then
      [{ code := .emptyIndexSpec
         location := indexSpecLocation entity position
         message := label ++ ": composite index must list at least one field." }]
    else []) ++ indexSpecViolations label entity (position + 1) specs

/-! ## Entities -/

/-- An entity without a name. -/
def emptyEntityName (location : String) : Violation where
  code := .emptyEntityName
  location := location
  message := "Entity name must not be empty."

/-- An entity in the collection of an earlier one. -/
def duplicateCollection (location collection user : String) : Violation where
  code := .duplicateCollection
  location := location
  message := "Collection '" ++ collection ++ "' is already used by " ++ user ++ "."

/-- The violation of an entity as a whole, after entities that used the collections `seen`. -/
def nameViolations (location : String) (seen : List (String × String)) (e : Entity) :
    List Violation :=
  if Text.isBlank e.name then [emptyEntityName location]
  else
    match Assoc.find? e.collection seen with
    | some user => [duplicateCollection location e.collection user]
    | none => []

/-- The collections used once an entity has been seen, with their first users. -/
def claimCollection (seen : List (String × String)) (e : Entity) : List (String × String) :=
  if Text.isBlank e.name then seen
  else
    match Assoc.find? e.collection seen with
    | some _ => seen
    | none => (e.collection, e.name) :: seen

/-- The violations of an entity, after entities that used the collections `seen`. -/
def entityViolations (position : Nat) (seen : List (String × String)) (e : Entity) :
    List Violation :=
  let location := entityLocation position
  let label := e.label location
  nameViolations location seen e ++ fieldViolations label location [] 0 e.fields
    ++ indexSpecViolations label location 0 e.indexSpecs

/-- The violations of the entities from a position on. -/
def violationsFrom (seen : List (String × String)) : Nat → List Entity → List Violation
  | _, [] => []
  | position, e :: es =>
    entityViolations position seen e ++ violationsFrom (claimCollection seen e) (position + 1) es

/-- Every violation of a schema, in its order. -/
def Schema.violations (s : Schema) : List Violation := violationsFrom [] 0 s.entities

end DocSchema
