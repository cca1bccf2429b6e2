import DocSchema.Schema.Ownership

/-!
# Access policies

Every collection gets one of three policies.

* If some field names the owner, the owner has rights of its own. The first such field counts.
* If the entity is about users, a user has rights on the own profile.
* All other collections have the default policy.

## Main definitions

* `AccessPolicy`: a policy, with the owner field where there is one
* `Entity.policy`: the policy of an entity
-/

namespace DocSchema

/-- The access policy of a collection. -/
inductive AccessPolicy
  /-- The user whom the field names is the owner. -/
  | ownership (ownerField : String)
  /-- The user whose identity is the key of the record is the owner. -/
  | userProfile
  | standard
  deriving DecidableEq, Repr

namespace AccessPolicy

/-- The written form of a policy. -/
def text : AccessPolicy → String
  | ownership _ => "ownership"
  | userProfile => "user-profile"
  | standard => "default"

/-- The field that names the owner. -/
def ownerField : AccessPolicy → Option String
  | ownership field => some field
  | userProfile => none
  | standard => none

end AccessPolicy

/-- Whether an entity is about users: its name holds the word in any case. -/
def Entity.isUserProfile (e : Entity) : Bool := Text.occursIn "user" (Text.lower e.name)

/-- The policy of an entity. -/
def Entity.policy (e : Entity) : AccessPolicy :=
  match e.fields.find? Field.grantsAccess with
  | some field => .ownership field.name
  | none => if e.isUserProfile then .userProfile else .standard

end DocSchema
