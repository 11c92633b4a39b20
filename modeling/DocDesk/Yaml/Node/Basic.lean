import DocDesk.Yaml.Fault

/-!
# Nodes of a YAML document

A document is a tree of scalars, sequences and mappings, each with a tag and the place where it
starts.  An alias is a copy of the node it names; an alias of a node around it is a loop.

Main definition: `Node`.
-/

namespace DocDesk.Yaml

/-- A node. -/
inductive Node where
  | scalar (tag : String) (text : List Char) (start : Mark)
  | sequence (tag : String) (items : List Node) (start : Mark)
  | mapping (tag : String) (entries : List (Node × Node)) (start : Mark)
  | loop (kind : NodeKind) (start : Mark)
deriving Inhabited

namespace Node

/-- The kind of a node; a loop has the kind of the node around it. -/
def kind : Node → NodeKind
  | .scalar _ _ _ => .scalar
  | .sequence _ _ _ => .sequence
  | .mapping _ _ _ => .mapping
  | .loop kind _ => kind

/-- The place where a node starts. -/
def start : Node → Mark
  | .scalar _ _ start => start
  | .sequence _ _ start => start
  | .mapping _ _ start => start
  | .loop _ start => start

end Node

/-! ## Tags -/

namespace Tag

/-- What the tags of the language start with. -/
def base : String := "tag:yaml.org,2002:"

/-- A tag of the language. -/
def core (name : String) : String := base ++ name

/-- The tag of a kind of plain scalar. -/
def ofPlain : PlainKind → String
  | .null => core "null"
  | .bool => core "bool"
  | .int => core "int"
  | .float => core "float"
  | .timestamp => core "timestamp"
  | .merge => core "merge"
  | .value => core "value"
  | .str => core "str"

/-- The handles that every document knows. -/
def knownHandles : List (String × String) := [("!", "!"), ("!!", base)]

end Tag

end DocDesk.Yaml
