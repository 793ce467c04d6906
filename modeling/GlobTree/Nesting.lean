import GlobTree.Tree.Node
/-!
# Open groups

`Nesting` keeps the groups that are open while a text is parsed: one stack of all of them, whose top
is the innermost group, and one stack for every kind, which answers questions about that kind.
Groups close in the opposite order of opening.
-/

namespace GlobTree

/-- Why no group could be closed. -/
inductive CloseMismatch (K : Type)
  /-- No group is open. -/
  | nothingOpen
  /-- The innermost group is of another kind. -/
  | interleaved (innermost : K)
  deriving DecidableEq, Repr

/-- The open groups. -/
structure Nesting (K : Type) where
  /-- All open groups, the innermost first. -/
  stack : List (K × NodeId) := []
  /-- The open groups of each kind that was ever opened, the innermost first. -/
  byKind : List (K × List NodeId) := []
  deriving DecidableEq, Repr, Inhabited

namespace Nesting

variable {K : Type}

/-- The innermost open group and its kind. -/
def innermost? (nesting : Nesting K) : Option (K × NodeId) := nesting.stack.head?

/-- The innermost open group. -/
def current? (nesting : Nesting K) : Option NodeId := nesting.innermost?.map (·.2)

/-- The number of open groups. -/
def depth (nesting : Nesting K) : Nat := nesting.stack.length

/-- Whether no group is open. -/
def isEmpty (nesting : Nesting K) : Bool := nesting.stack.isEmpty

/-- Closes all groups at once. -/
def clear (nesting : Nesting K) : Nesting K := { nesting with stack := [], byKind := [] }

variable [DecidableEq K]

/-- Changes the stack of one kind, which is empty if there is none yet. -/
def alterKind (kind : K) (change : List NodeId → List NodeId) :
    List (K × List NodeId) → List (K × List NodeId)
  | [] => [(kind, change [])]
  | (other, ids) :: rest =>
    if other = kind then (other, change ids) :: rest
    else (other, ids) :: alterKind kind change rest

/-- Opens a group. -/
def push (nesting : Nesting K) (kind : K) (id : NodeId) : Nesting K where
  stack := (kind, id) :: nesting.stack
  byKind := alterKind kind (id :: ·) nesting.byKind

/-- Closes the innermost group, which has to be of the given kind. -/
def pop (nesting : Nesting K) (kind : K) :
    Except (CloseMismatch K) (NodeId × Nesting K) :=
  match nesting.stack with
  | [] => .error .nothingOpen
  | (innermost, id) :: stack =>
    if innermost = kind then .ok (id, ⟨stack, alterKind kind List.tail nesting.byKind⟩)
    else .error (.interleaved innermost)

/-- The open groups of a kind, the innermost first. -/
def ofKind (nesting : Nesting K) (kind : K) : List NodeId :=
  (nesting.byKind.lookup kind).getD []

/-- The innermost open group of a kind. -/
def currentOf? (nesting : Nesting K) (kind : K) : Option NodeId := (nesting.ofKind kind).head?

/-- The number of open groups of a kind. -/
def depthOf (nesting : Nesting K) (kind : K) : Nat := (nesting.ofKind kind).length

/-- Whether a group of a kind is open. -/
def isInside (nesting : Nesting K) (kind : K) : Bool := nesting.depthOf kind > 0

end Nesting

end GlobTree
