/-!
# Tokens of a YAML text

Tokens are the words of a YAML text together with the structure that its indentation stands for.
-/

namespace DocSchema.Yaml

/-- A line with an instruction for the reader. -/
inductive Directive
  | version (major : Nat)
  /-- A tag that opens with the handle opens with the other text in full. -/
  | tagHandle (handle expansion : String)
  /-- An unknown instruction, which is ignored. -/
  | other
  deriving DecidableEq, Repr

/-- A tag as it is written: a handle, if it has one, and what follows it. -/
structure TagToken where
  handle : Option String
  suffix : String
  deriving DecidableEq, Repr

/-- A token of a YAML text. -/
inductive Token
  | directive (d : Directive)
  | documentStart
  | documentEnd
  | blockListStart
  | blockMapStart
  | blockEnd
  | flowListStart
  | flowListEnd
  | flowMapStart
  | flowMapEnd
  /-- The hyphen of a list entry. -/
  | entry
  /-- The comma between two entries. -/
  | comma
  | key
  | value
  | reference (name : String)
  | anchor (name : String)
  | tag (tag : TagToken)
  /-- A text; it is plain if it is neither quoted nor in block form. -/
  | scalar (plain : Bool) (text : String)
  deriving DecidableEq, Repr

end DocSchema.Yaml
