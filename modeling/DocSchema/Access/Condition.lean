/-!
# Conditions of access rules

The conditions under which the rules of the database grant access, as expressions, and their
written form.

## Main definitions

* `Reference`: what a user identity is compared with
* `Helper`: the functions that every rules file defines
* `Condition`, `Condition.text`
* `Helper.body`: what a function stands for
-/

namespace DocSchema

/-- A value that the identity of a user is compared with. -/
inductive Reference
  /-- The argument of the function that the condition stands in. -/
  | argument
  /-- The key of the record. -/
  | docId
  /-- A field of the stored record. -/
  | stored (field : String)
  deriving DecidableEq, Repr

/-- The written form of a reference. -/
def Reference.text : Reference → String
  | argument => "userId"
  | docId => "docId"
  | stored field => "resource.data." ++ field

/-- A function that every rules file defines. -/
inductive Helper
  | isAuthenticated
  | isAdmin
  | isOwner
  deriving DecidableEq, Repr

namespace Helper

/-- All functions in the order of the file. -/
def all : List Helper := [isAuthenticated, isAdmin, isOwner]

/-- The name of a function. -/
def name : Helper → String
  | isAuthenticated => "isAuthenticated"
  | isAdmin => "isAdmin"
  | isOwner => "isOwner"

/-- The argument list of a function. -/
def arguments : Helper → String
  | isAuthenticated => ""
  | isAdmin => ""
  | isOwner => Reference.text .argument

end Helper

/-- A condition of an access rule. -/
inductive Condition
  /-- The request comes from a user who is signed in. -/
  | signedIn
  /-- The user has the role of an administrator. -/
  | adminRole
  /-- The identity of the user is the referenced value. -/
  | uidEquals (reference : Reference)
  /-- The request leaves the role in the record as it is. -/
  | roleKept
  /-- A function without argument holds. -/
  | call (helper : Helper)
  /-- A function holds of the referenced value. -/
  | callWith (helper : Helper) (reference : Reference)
  | both (a b : Condition)
  | either (a b : Condition)
  | grouped (a : Condition)
  deriving DecidableEq, Repr

/-- The written form of a condition. -/
def Condition.text : Condition → String
  | signedIn => "request.auth != null"
  | adminRole => "request.auth.token.role == 'admin'"
  | uidEquals reference => "request.auth.uid == " ++ reference.text
  | roleKept => "request.resource.data.role == resource.data.role"
  | call helper => helper.name ++ "()"
  | callWith helper reference => helper.name ++ "(" ++ reference.text ++ ")"
  | both a b => a.text ++ " && " ++ b.text
  | either a b => a.text ++ " || " ++ b.text
  | grouped a => "(" ++ a.text ++ ")"

/-- What a function stands for. -/
def Helper.body : Helper → Condition
  | isAuthenticated => .signedIn
  | isAdmin => .both (.call .isAuthenticated) .adminRole
  | isOwner => .both (.call .isAuthenticated) (.uidEquals .argument)

end DocSchema
