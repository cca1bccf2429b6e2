import DocSchema.Schema.Ownership

/-!
# Composite indexes

Every pair of an owner field and a timestamp field of an entity asks for an index: the owner
ascending, the time descending. After these come the indexes that the entity lists, all of whose
fields are ascending.

## Main definitions

* `CompositeIndex`
* `Schema.indexes`: the indexes of a schema in the order of its entities
* `manifestJson`, `manifestText`: the manifest of several indexes
-/

namespace DocSchema

/-- The direction in which an indexed field is sorted. -/
inductive SortOrder
  | ascending
  | descending
  deriving DecidableEq, Repr

/-- The written form of a direction. -/
def SortOrder.text : SortOrder → String
  | ascending => "ASCENDING"
  | descending => "DESCENDING"

/-- One field of an index. -/
structure IndexField where
  path : String
  order : SortOrder := .ascending
  deriving DecidableEq, Repr

/-- An index over several fields of one collection. -/
structure CompositeIndex where
  collection : String
  fields : List IndexField
  deriving DecidableEq, Repr

/-- The fields that name the owner in indexes. -/
def Entity.indexOwners (e : Entity) : List Field := e.fields.filter Field.grantsIndex

/-- The fields that hold a moment in time. -/
def Entity.timestamps (e : Entity) : List Field := e.fields.filter Field.isTimestamp

/-- The indexes of the pairs of owner and timestamp fields. -/
def Entity.ownerTimeIndexes (e : Entity) : List CompositeIndex :=
  e.indexOwners.flatMap fun owner =>
    e.timestamps.map fun time =>
      { collection := e.collection
        fields := [{ path := owner.name }, { path := time.name, order := .descending }] }

/-- The indexes that an entity lists. -/
def Entity.listedIndexes (e : Entity) : List CompositeIndex :=
  e.indexSpecs.map fun spec =>
    { collection := e.collection, fields := spec.map fun path => { path } }

/-- The indexes of an entity. -/
def Entity.indexes (e : Entity) : List CompositeIndex := e.ownerTimeIndexes ++ e.listedIndexes

/-- The indexes of a schema. -/
def Schema.indexes (s : Schema) : List CompositeIndex := s.entities.flatMap Entity.indexes

/-! ## The manifest -/

/-- A field of an index in the manifest. -/
def IndexField.json (f : IndexField) : Json :=
  .object [("fieldPath", .text f.path), ("order", .text f.order.text)]

/-- An index in the manifest. All indexes cover one collection only. -/
def CompositeIndex.json (i : CompositeIndex) : Json :=
  .object [("collectionGroup", .text i.collection), ("queryScope", .text "COLLECTION"),
    ("fields", .list (i.fields.map IndexField.json))]

/-- The manifest of several indexes; its list of overrides is empty. -/
def manifestJson (indexes : List CompositeIndex) : Json :=
  .object [("indexes", .list (indexes.map CompositeIndex.json)), ("fieldOverrides", .list [])]

/-- The text of a manifest. -/
def manifestText (indexes : List CompositeIndex) : String := (manifestJson indexes).pretty

end DocSchema
