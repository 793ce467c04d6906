import GlobTree.Text.Location
/-!
# Nodes

A document is a tree of nodes. A `Role` says what a node is for: tokens stand for text, groups hold
an opening token, contents and, once it was seen, a closing token. `K` is the type of the kinds that
a dialect tells apart.

Nodes refer to each other by number; the root has number zero.
-/

namespace GlobTree

/-- The number of a node in its document. -/
abbrev NodeId := Nat

/-- The number of the root. -/
def rootId : NodeId := 0

/-- What a node is for. -/
inductive Role (K : Type)
  /-- The root of the document. -/
  | root
  /-- The end of the document, the last child of the root. -/
  | eos
  /-- A piece of text. -/
  | token (kind : K)
  /-- A group with its opening token, its contents and its closing token. -/
  | group (kind : K)
  /-- The token that opens a group. -/
  | opening (kind : K)
  /-- The token that closes a group. -/
  | closing (kind : K)
  deriving DecidableEq, Repr, Inhabited

namespace Role

variable {K : Type}

/-- The kind of a node, which the root and the end have none of. -/
def kind? : Role K → Option K
  | root | eos => none
  | token kind | group kind | opening kind | closing kind => some kind

/-- The roles of nodes that stand for no text of their own. -/
def isStructural : Role K → Bool
  | root | eos | group _ => true
  | token _ | opening _ | closing _ => false

/-- The tokens at the two ends of a group. -/
def isDelimiter : Role K → Bool
  | opening _ | closing _ => true
  | _ => false

instance [ToString K] : ToString (Role K) where
  toString
    | root => "root"
    | eos => "eos"
    | token kind | group kind => toString kind
    | opening kind => s!"{kind}.open"
    | closing kind => s!"{kind}.close"

end Role

/-- How far a text was read, and how much of it there was, when a node was made. Both count
bytes. -/
structure Moment where
  cursor : Nat
  horizon : Nat
  deriving DecidableEq, Repr, Inhabited

/-- A node of a document. -/
structure Node (K : Type) where
  role : Role K
  /-- The text of the node. -/
  raw : String
  /-- Text in front of an opening token. -/
  lead : Option String := none
  /-- Text that goes with a closing token. -/
  trail : Option String := none
  span : Span
  parent : Option NodeId := none
  children : Array NodeId := #[]
  /-- The moment at which the node was made, if it was made by a parser. -/
  made : Option Moment := none
  deriving DecidableEq, Repr, Inhabited

end GlobTree
