import ImportRepair.Yaml.Implicit

/-!
# The nodes of a document

A node may be a part of several others and even of itself, since an alias names a node a second
time. So nodes are numbered, and a node knows its parts by their numbers.
-/

namespace ImportRepair.Yaml

/-- The tag of a node: one of the standard set, or one that nobody knows. -/
inductive Tag
  | standard (tag : StandardTag)
  | unknown
deriving DecidableEq, Repr

/-- A node of a document. Its parts are given by their numbers. -/
inductive Node
  | scalar (tag : Tag) (text : Text)
  | sequence (tag : Tag) (items : List Nat)
  | mapping (tag : Tag) (entries : List (Nat × Nat))
deriving Repr

namespace Node

/-- The node of what is left out. -/
def absent : Node := .scalar (.standard .null) []

/-- The tag of a node. -/
def tag : Node → Tag
  | .scalar tag _ => tag
  | .sequence tag _ => tag
  | .mapping tag _ => tag

/-- The node with another tag. -/
def withTag (tag : Tag) : Node → Node
  | .scalar _ text => .scalar tag text
  | .sequence _ items => .sequence tag items
  | .mapping _ entries => .mapping tag entries

/-- The entries of a mapping; other nodes have none. -/
def entries : Node → List (Nat × Nat)
  | .mapping _ entries => entries
  | _ => []

end Node

/-- Nodes by their numbers. -/
abbrev Graph := Array Node

namespace Graph

/-- The node with a number. -/
def node (g : Graph) (number : Nat) : Node := g.getD number .absent

/-- The graph with one node changed. -/
def change (g : Graph) (number : Nat) (f : Node → Node) : Graph := g.modify number f

/-- Whether the node with a number has a standard tag. -/
def hasTag (g : Graph) (number : Nat) (tag : StandardTag) : Bool :=
  (g.node number).tag = .standard tag

/-- The number of all entries of mappings. -/
def entryCount (g : Graph) : Nat := g.foldl (fun n node => n + node.entries.length) 0

end Graph

end ImportRepair.Yaml
