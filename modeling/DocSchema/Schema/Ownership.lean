import DocSchema.Schema.Model
import DocSchema.Text.Search

/-!
# Ownership of fields

A field is tagged by the schema or, without a tag, by certain words in its name. The words are
case-sensitive and may stand anywhere in the name.

## Main definitions

* `Ownership.ofName`: the tag that a name gives
* `Field.resolvedOwnership`: the tag of a field
* `Ownership.grantsAccess`, `Ownership.grantsIndex`: what a tag is good for
-/

namespace DocSchema

/-- The words that mark the owner for access rules and for indexes. -/
def indexOwnerMarkers : List String := ["userId", "agentId"]

/-- The words that mark the owner for access rules. -/
def accessOwnerMarkers : List String := indexOwnerMarkers ++ ["ownerId"]

/-- Whether one of several words occurs in a name. -/
def hasMarker (markers : List String) (name : String) : Bool :=
  markers.any fun marker => Text.occursIn marker name

namespace Ownership

/-- The tag that the name of a field gives. -/
def ofName (name : String) : Ownership :=
  if hasMarker indexOwnerMarkers name then owner
  else if hasMarker accessOwnerMarkers name then accessOwner
  else none

/-- Whether a field with this tag names the owner in access rules. -/
def grantsAccess : Ownership → Bool
  | owner => true
  | accessOwner => true
  | none => false

/-- Whether a field with this tag takes part in derived indexes. -/
def grantsIndex : Ownership → Bool
  | owner => true
  | accessOwner => false
  | none => false

end Ownership

namespace Field

/-- The tag of a field: the given one, or else the one of its name. -/
def resolvedOwnership (f : Field) : Ownership := f.ownership.getD (Ownership.ofName f.name)

/-- Whether a field holds a moment in time. -/
def isTimestamp (f : Field) : Bool := f.type == timestampType

/-- Whether a field names the owner in access rules. -/
def grantsAccess (f : Field) : Bool := f.resolvedOwnership.grantsAccess

/-- Whether a field takes part in derived indexes as the owner. -/
def grantsIndex (f : Field) : Bool := f.resolvedOwnership.grantsIndex

end Field

end DocSchema
