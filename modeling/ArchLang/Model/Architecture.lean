/-!
# Architectures

The presentation and gateway layers of an architecture: single nodes, or nodes that are chained.

* `Component.ofChain?` makes a component of a chain; there is none without nodes.
* `Node.modifier?` looks a modifier up by its key.
-/

namespace ArchLang

/-- A modifier of a node; its value may be absent. -/
structure Modifier where
  key : String
  value : Option String
  deriving DecidableEq, Repr

/-- A node with its modifiers, in order; a key may repeat. -/
structure Node where
  name : String
  modifiers : List Modifier
  deriving DecidableEq, Repr

/-- The first modifier with this key. -/
def Node.modifier? (n : Node) (key : String) : Option Modifier :=
  n.modifiers.find? fun m => m.key = key

/-- A part of a layer. -/
inductive Component where
  | node (node : Node)
  | flow (chain : List Node)
  deriving DecidableEq, Repr

namespace Component

/-- A chain of one node is that node, a longer one a flow; there is no component without nodes. -/
def ofChain? : List Node → Option Component
  | [] => none
  | [only] => some (node only)
  | chain => some (flow chain)

/-- Whether the nodes are chained. -/
def isChain : Component → Bool
  | node _ => false
  | flow _ => true

/-- The nodes in order. -/
def nodes : Component → List Node
  | node only => [only]
  | flow chain => chain

end Component

/-- The layers of an architecture. -/
structure Architecture where
  name : Option String
  presentation : List Component
  gateway : List Component
  deriving DecidableEq, Repr

end ArchLang
