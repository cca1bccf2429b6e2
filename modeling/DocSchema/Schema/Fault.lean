/-!
# Faults of a schema document

What keeps a document value from being a schema. A fault names the place in the document, written
as a path such as `entities[0].fields[2].name`, and what belongs there.
-/

namespace DocSchema

/-- What belongs at a place of a document. -/
inductive Expected
  | mapping
  | list
  | text
  | boolean
  | json
  | ownership
  deriving DecidableEq, Repr

/-- The demand in words. -/
def Expected.message : Expected → String
  | mapping => "must be a mapping."
  | list => "must be a list."
  | text => "must be a string."
  | boolean => "must be a boolean."
  | json => "must be a JSON value."
  | ownership => "must be one of: owner, access_owner, none."

/-- A fault of a schema document. -/
inductive SchemaFault
  /-- The document is neither empty nor a mapping. -/
  | root
  /-- An entity or field has no name. -/
  | nameless (location : String)
  /-- Something else stands where a value of a certain kind belongs. -/
  | unexpected (location : String) (expected : Expected)
  deriving DecidableEq, Repr

/-- The wording of a fault. -/
def SchemaFault.message : SchemaFault → String
  | root => "Schema root must be a mapping."
  | nameless location => location ++ " requires a name."
  | unexpected location expected => location ++ " " ++ expected.message

/-- The place of the item at a position of a list. -/
def itemLocation (location : String) (position : Nat) : String :=
  location ++ "[" ++ toString position ++ "]"

/-- The place of a member of a mapping. -/
def memberLocation (location key : String) : String := location ++ "." ++ key

end DocSchema
