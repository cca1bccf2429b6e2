import DocSchema.Access.Policy
import DocSchema.Capacity

/-!
# The report on a schema

A report sums a schema up: totals, the entities with their fields and relationships, who may do
what in which collection, and the capacity estimates. Its written forms are in the modules beside
this one.

## Main definitions

* `Report`, `Schema.report`
* `Grantee`, `AccessPolicy.grants`: who has a right under a policy
* `relationshipArrow`: the direction of a relationship as an arrow
-/

namespace DocSchema

/-- Who has a right. -/
inductive Grantee
  | authenticated
  | adminOnly
  | ownerOrAdmin
  /-- The owner only as long as the role in the record stays the same. -/
  | ownerOrAdminRoleLocked
  deriving DecidableEq, Repr

/-- The written form of a grantee. -/
def Grantee.text : Grantee → String
  | authenticated => "Authenticated"
  | adminOnly => "Admin only"
  | ownerOrAdmin => "Owner + Admin"
  | ownerOrAdminRoleLocked => "Owner + Admin (role locked)"

/-- Who has each of the four rights. -/
structure Grants where
  read : Grantee
  create : Grantee
  update : Grantee
  delete : Grantee
  deriving DecidableEq, Repr

/-- Who has which right under a policy. -/
def AccessPolicy.grants : AccessPolicy → Grants
  | ownership _ => ⟨.authenticated, .authenticated, .ownerOrAdmin, .ownerOrAdmin⟩
  | userProfile => ⟨.ownerOrAdmin, .authenticated, .ownerOrAdminRoleLocked, .adminOnly⟩
  | standard => ⟨.authenticated, .adminOnly, .adminOnly, .adminOnly⟩

/-- The arrow of a type of relationships; an unknown type counts as many to many. -/
def relationshipArrow (type : String) : String :=
  if type = "oneToMany" then "→ *"
  else if type = "manyToOne" then "* →"
  else if type = "oneToOne" then "→"
  else "* ↔ *"

/-- The totals of a schema. -/
structure Overview where
  collections : Nat
  totalFields : Nat
  relationships : Nat
  indexes : Nat
  roles : Nat
  deriving DecidableEq, Repr

/-- A relationship with its arrow. -/
structure RelationshipSummary extends Relationship where
  arrow : String
  deriving DecidableEq, Repr

/-- The contents of one entity. -/
structure EntityBreakdown where
  collection : String
  model : String
  fields : List Field
  relationships : List RelationshipSummary
  indexSpecs : List (List String)
  deriving Repr

/-- The rights in one collection. -/
structure CollectionAccess where
  collection : String
  policy : AccessPolicy
  grants : Grants
  deriving DecidableEq, Repr

/-- The capacity estimate of one collection. -/
structure CapacityRow where
  collection : String
  estimate : CapacityEstimate
  deriving DecidableEq, Repr

/-- The report on a schema. -/
structure Report where
  overview : Overview
  entities : List EntityBreakdown
  roles : List Role
  access : List CollectionAccess
  capacity : List CapacityRow
  deriving Repr

/-- A relationship with its arrow. -/
def Relationship.summary (r : Relationship) : RelationshipSummary :=
  { toRelationship := r, arrow := relationshipArrow r.type }

/-- The contents of an entity. -/
def Entity.breakdown (e : Entity) : EntityBreakdown where
  collection := e.collection
  model := e.name
  fields := e.fields
  relationships := e.relationships.map Relationship.summary
  indexSpecs := e.indexSpecs

/-- The rights in the collection of an entity. -/
def Entity.access (e : Entity) : CollectionAccess where
  collection := e.collection
  policy := e.policy
  grants := e.policy.grants

/-- The totals of a schema. -/
def Schema.overview (s : Schema) : Overview where
  collections := s.entities.length
  totalFields := (s.entities.flatMap Entity.fields).length
  relationships := (s.entities.flatMap Entity.relationships).length
  indexes := (s.entities.flatMap Entity.indexSpecs).length
  roles := s.roles.length

/-- The report on a schema. -/
def Schema.report (s : Schema) : Report where
  overview := s.overview
  entities := s.entities.map Entity.breakdown
  roles := s.roles
  access := s.entities.map Entity.access
  capacity := s.entities.map fun e => { collection := e.collection, estimate := e.capacity }

end DocSchema
