import GlobTree.Text.Location
import GlobTree.Tree.Document
/-!
# Drawings

A renderer goes through a document and writes a text, a node at a time. What is written for a node
is a `Drawing`: a program that emits text and calls for other nodes to be rendered. What it does
next may depend on what was written so far.

The text is kept on a `Canvas`, as the fragments that were emitted. Each fragment remembers where
it starts and the place in the source that it stands for.
-/

namespace GlobTree

/-- What can go wrong while rendering. -/
inductive RenderError (K : Type)
  /-- There is nothing registered for a node with this role and text. -/
  | unregistered (role : Role K) (raw : String)
  /-- What is registered for a node refuses it. -/
  | handler (message : String)
  deriving DecidableEq, Repr, Inhabited

namespace RenderError

variable {K : Type}

/-- There is nothing registered for a node. -/
def ofNode (node : Node K) : RenderError K := .unregistered node.role node.raw

/-- An error in words. -/
def message [ToString K] : RenderError K → String
  | unregistered role raw => s!"No renderer registered for '{role}' (value '{raw}')"
  | handler message => message

instance [ToString K] : ToString (RenderError K) where
  toString error := s!"Render error: {error.message}"

end RenderError

/-! ## The canvas -/

/-- A piece of text that was emitted. -/
structure Fragment where
  text : String
  /-- Where the text starts in the output. -/
  generated : Location
  /-- What the text stands for. -/
  origin : Span
  deriving DecidableEq, Repr, Inhabited

/-- The text written so far. -/
structure Canvas where
  fragments : Array Fragment := #[]
  /-- Where the next fragment will start. -/
  location : Location := .start
  deriving DecidableEq, Repr, Inhabited

namespace Canvas

/-- Emits a text. The empty text leaves no fragment. -/
def emit (canvas : Canvas) (text : String) (origin : Span) : Canvas :=
  if text.isEmpty then canvas
  else
    { fragments := canvas.fragments.push ⟨text, canvas.location, origin⟩
      location := canvas.location.advance text.toList }

/-- The text written so far. -/
def output (canvas : Canvas) : String :=
  String.join (canvas.fragments.toList.map (·.text))

end Canvas

/-! ## Drawings -/

/-- What is done to render a node. -/
inductive Drawing (K α : Type) where
  /-- Ends with a value. -/
  | pure (value : α)
  /-- Ends the rendering with an error. -/
  | fail (error : RenderError K)
  /-- Reaches out of bounds. -/
  | outOfBounds
  /-- Emits a text that stands for a place of the source. -/
  | emit (text : String) (origin : Span) (next : Drawing K α)
  /-- Renders a node, of which it is said to stand at `index` among `siblings`. -/
  | render (id : NodeId) (siblings : Array NodeId) (index : Nat)
      (next : Except (RenderError K) Unit → Drawing K α)
  /-- Looks at the document and at what was written. -/
  | look (next : Document K → Canvas → Drawing K α)

namespace Drawing

variable {K α β : Type}

/-- One drawing after the other. -/
def bind : Drawing K α → (α → Drawing K β) → Drawing K β
  | .pure value, then_ => then_ value
  | .fail error, _ => .fail error
  | .outOfBounds, _ => .outOfBounds
  | .emit text origin next, then_ => .emit text origin (next.bind then_)
  | .render id siblings index next, then_ =>
    .render id siblings index fun result => (next result).bind then_
  | .look next, then_ => .look fun document canvas => (next document canvas).bind then_

instance : Monad (Drawing K) where
  pure := .pure
  bind := .bind

/-! ## Single steps -/

/-- Emits a text on behalf of a node. -/
def write (text : String) (node : Node K) : Drawing K Unit :=
  .emit text node.span (.pure ())

/-- Renders a node. Its error is the error of the whole. -/
def call (id : NodeId) (siblings : Array NodeId) (index : Nat) : Drawing K Unit :=
  .render id siblings index fun
    | .ok () => .pure ()
    | .error error => .fail error

/-- The value that has to be there. -/
def ofOption : Option α → Drawing K α
  | some value => .pure value
  | none => .outOfBounds

/-- A node of the document. -/
def node (id : NodeId) : Drawing K (Node K) :=
  .look fun document _ => ofOption (document.node? id)

/-- One drawing for each entry of a list, in order. -/
def forEach {γ : Type} (entries : List γ) (draw : γ → Drawing K Unit) : Drawing K Unit :=
  match entries with
  | [] => .pure ()
  | entry :: entries => (draw entry).bind fun _ => forEach entries draw

/-- The children of a node with their indexes. -/
def indexed (node : Node K) : List (NodeId × Nat) := node.children.toList.zipIdx

/-! ## Stock drawings -/

/-- The text of the node. -/
def raw (node : Node K) : Drawing K Unit := write node.raw node

/-- The children of the node, in order. -/
def children (node : Node K) : Drawing K Unit :=
  forEach (indexed node) fun (child, index) => call child node.children index

/-- The children of the node but its opening and closing tokens, in order. -/
def contents (node : Node K) : Drawing K Unit :=
  forEach (indexed node) fun (child, index) =>
    (Drawing.node child).bind fun below =>
      if below.role.isDelimiter then .pure () else call child node.children index

/-- Nothing. -/
def nothing : Drawing K Unit := .pure ()

end Drawing

end GlobTree
