import DocSchema.Yaml.Tag

/-!
# Nodes of a YAML document

A document is a tree of texts, lists and mappings. Each node has a tag, and the nodes that aliases
stand for are in the place of the aliases.
-/

namespace DocSchema.Yaml

/-- A node of a document. -/
inductive Node
  | scalar (tag : Tag) (text : String)
  | list (tag : Tag) (items : List Node)
  | map (tag : Tag) (entries : List (Node × Node))
  deriving Inhabited, Repr

namespace Node

/-- The tag of a node. -/
def tag : Node → Tag
  | scalar tag _ => tag
  | list tag _ => tag
  | map tag _ => tag

/-- The node with another tag. -/
def retag (tag : Tag) : Node → Node
  | scalar _ text => scalar tag text
  | list _ items => list tag items
  | map _ entries => map tag entries

/-- The node that stands where none is written. -/
def absent : Node := scalar .null ""

end Node

end DocSchema.Yaml
