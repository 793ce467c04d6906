import GlobTree.Tree.Node
/-!
# The nodes of a document

An `Arena` holds the nodes of a document by number. It starts with the root alone and grows by
`append?`, which gives a node the next number and makes it the last child of its parent.

Questions about a number that no node has are answered by `none`.
-/

namespace GlobTree

/-- The nodes of a document, by number. -/
structure Arena (K : Type) where
  nodes : Array (Node K)
  deriving DecidableEq, Repr

namespace Arena

variable {K : Type}

/-- A root and nothing else. -/
def empty (label : String) : Arena K where
  nodes := #[{ role := .root, raw := "", span := .point .start label }]

instance : Inhabited (Arena K) := ⟨empty ""⟩

/-- The number of nodes, with the root. -/
def size (arena : Arena K) : Nat := arena.nodes.size

/-- Whether there is no node but the root. -/
def isEmpty (arena : Arena K) : Bool := arena.size == 1

/-- The node with a number. -/
def node? (arena : Arena K) (id : NodeId) : Option (Node K) := arena.nodes[id]?

/-- The children of a node, in order. -/
def children? (arena : Arena K) (id : NodeId) : Option (Array NodeId) :=
  (arena.node? id).map (·.children)

/-- The children of the root. -/
def topLevel (arena : Arena K) : Array NodeId :=
  (arena.children? rootId).getD #[]

/-- The parent of a node, which the root has none of. -/
def parent? (arena : Arena K) (id : NodeId) : Option (Option NodeId) :=
  (arena.node? id).map (·.parent)

/-- The first child of a node, if it has children. -/
def firstChild? (arena : Arena K) (id : NodeId) : Option (Option NodeId) :=
  (arena.children? id).map (·[0]?)

/-- The last child of a node, if it has children. -/
def lastChild? (arena : Arena K) (id : NodeId) : Option (Option NodeId) :=
  (arena.children? id).map (·.back?)

/-- The children of a node's parent, the node among them. The root has none. -/
def siblings? (arena : Arena K) (id : NodeId) : Option (Array NodeId) := do
  match ← arena.parent? id with
  | some parent => arena.children? parent
  | none => return #[]

/-- Where a node stands among its siblings. -/
def indexInParent? (arena : Arena K) (id : NodeId) : Option (Option Nat) :=
  (arena.siblings? id).map (·.idxOf? id)

/-- The number of steps up to the root, of which there may be at most the given number. -/
def depthWithin? (arena : Arena K) : Nat → NodeId → Option Nat
  | 0, _ => none
  | n + 1, id => do
    match ← arena.parent? id with
    | some parent => return (← arena.depthWithin? n parent) + 1
    | none => return 0

/-- The number of ancestors of a node. A node that is its own ancestor has no depth. -/
def depth? (arena : Arena K) (id : NodeId) : Option Nat :=
  arena.depthWithin? arena.size id

/-- Whether a node is a group that has its closing token. -/
def isClosed? [DecidableEq K] (arena : Arena K) (id : NodeId) : Option Bool := do
  match (← arena.node? id).role, ← arena.lastChild? id with
  | .group kind, some last => return (← arena.node? last).role = .closing kind
  | _, _ => return false

/-- Adds a node as the last child of a parent, which may be the node itself. The result is the
number of the node. -/
def append? (arena : Arena K) (parent : NodeId) (node : Node K) : Option (NodeId × Arena K) :=
  let id := arena.size
  if parent ≤ id then
    let nodes := arena.nodes.push { node with parent := some parent, children := #[] }
    let addChild (above : Node K) := { above with children := above.children.push id }
    some (id, ⟨nodes.modify parent addChild⟩)
  else none

/-- Visits the nodes on a stack and all below them, the top of the stack first. The number bounds
the nodes visited. -/
def visit (arena : Arena K) : Nat → List NodeId → List NodeId
  | 0, _ => []
  | _, [] => []
  | n + 1, id :: stack =>
    id :: arena.visit n (((arena.children? id).getD #[]).toList ++ stack)

/-- All nodes but the root, each before its children. -/
def order (arena : Arena K) : List NodeId :=
  arena.visit arena.size arena.topLevel.toList

end Arena

end GlobTree
