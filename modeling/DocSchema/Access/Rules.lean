import DocSchema.Access.Condition
import DocSchema.Access.Policy
import DocSchema.Text.Lines

/-!
# Access rules

The rules file of a schema has a block for every entity, between a header that defines a few
functions and a footer. The lines of a block follow from the policy of the entity. The rules of
the file storage are the same for every schema.

## Main definitions

* `AllowLine`: the methods that a line is about and the condition under which it grants them
* `AccessPolicy.allowLines`: the lines of a policy
* `Entity.block`, `rulesLines`, `rulesText`: the text of a rules file
* `storageRules`: the rules of the file storage
-/

namespace DocSchema

/-! ## Allow lines -/

/-- A method of a rule. -/
inductive Method
  | read
  | create
  | update
  | delete
  /-- All three methods that change a record. -/
  | write
  deriving DecidableEq, Repr

/-- The written form of a method. -/
def Method.text : Method → String
  | read => "read"
  | create => "create"
  | update => "update"
  | delete => "delete"
  | write => "write"

/-- A line that grants methods under a condition. -/
structure AllowLine where
  methods : List Method
  condition : Condition
  deriving DecidableEq, Repr

/-- The written form of a line. -/
def AllowLine.text (l : AllowLine) : String :=
  "allow " ++ ", ".intercalate (l.methods.map Method.text) ++ ": if " ++ l.condition.text ++ ";"

namespace AccessPolicy

/-- The lines of a policy. -/
def allowLines : AccessPolicy → List AllowLine
  | ownership field =>
    [⟨[.read], .call .isAuthenticated⟩,
     ⟨[.create], .call .isAuthenticated⟩,
     ⟨[.update, .delete], .either (.call .isAdmin) (.callWith .isOwner (.stored field))⟩]
  | userProfile =>
    [⟨[.read], .either (.call .isAdmin) (.callWith .isOwner .docId)⟩,
     ⟨[.create], .call .isAuthenticated⟩,
     ⟨[.update],
      .either (.call .isAdmin) (.grouped (.both (.callWith .isOwner .docId) .roleKept))⟩,
     ⟨[.delete], .call .isAdmin⟩]
  | standard =>
    [⟨[.read], .call .isAuthenticated⟩,
     ⟨[.write], .call .isAdmin⟩]

/-- The comment over the lines of a policy. -/
def comment : AccessPolicy → String
  | ownership _ => "// Admins can read/write all, owners can manage their own"
  | userProfile => "// Users can read their own profile, admins can read/write all"
  | standard => "// Default: authenticated users can read, admins can write"

/-- The comment and the lines of a policy. -/
def lines (p : AccessPolicy) : List String := p.comment :: p.allowLines.map AllowLine.text

end AccessPolicy

/-! ## The rules file -/

/-- The definition of a function. -/
def Helper.lines (h : Helper) : List String :=
  ["    function " ++ h.name ++ "(" ++ h.arguments ++ ") \x7b",
   "      return " ++ h.body.text ++ ";",
   "    \x7d",
   ""]

/-- The lines before the blocks. -/
def headerLines : List String :=
  ["rules_version = '2';",
   "service cloud.firestore \x7b",
   "  match /databases/\x7bdatabase\x7d/documents \x7b",
   "    // Helper functions"]
    ++ Helper.all.flatMap Helper.lines

/-- The lines behind the blocks. -/
def footerLines : List String := ["  \x7d", "\x7d"]

/-- The block of an entity. -/
def Entity.block (e : Entity) : List String :=
  ["    // " ++ e.name ++ " collection",
   "    match /" ++ e.collection ++ "/\x7bdocId\x7d \x7b"]
    ++ e.policy.lines.map (fun line => "      " ++ line)
    ++ ["    \x7d", ""]

/-- The lines of the rules file of a schema. -/
def rulesLines (s : Schema) : List String :=
  headerLines ++ s.entities.flatMap Entity.block ++ footerLines

/-- The rules file of a schema. -/
def rulesText (s : Schema) : String := Text.unlines (rulesLines s)

/-! ## The file storage -/

/-- The lines of the rules for the file storage. -/
def storageLines : List String :=
  ["rules_version = '2';",
   "service firebase.storage \x7b",
   "  match /b/\x7bbucket\x7d/o \x7b",
   "    // User uploads - users can only access their own files",
   "    match /users/\x7buserId\x7d/\x7ballPaths=**\x7d \x7b",
   "      allow read, write: if request.auth != null && request.auth.uid == userId;",
   "    \x7d",
   "",
   "    // Admin uploads - only admins can access",
   "    match /admin/\x7ballPaths=**\x7d \x7b",
   "      allow read, write: if request.auth != null && request.auth.token.role == 'admin';",
   "    \x7d",
   "",
   "    // Public files - anyone can read, only admins can write",
   "    match /public/\x7ballPaths=**\x7d \x7b",
   "      allow read: if true;",
   "      allow write: if request.auth != null && request.auth.token.role == 'admin';",
   "    \x7d",
   "  \x7d",
   "\x7d"]

/-- The rules for the file storage. -/
def storageRules : String := Text.unlines storageLines

end DocSchema
