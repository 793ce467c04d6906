import GlobTree.Render.Renderer
/-!
# Scripts for drawings

A list of `Stroke`s makes a drawing function without any code. The strokes are drawn in order, all
on behalf of the node that is rendered, and the first error ends the drawing.

Strokes are one use of `Drawing`, for drawing functions that are given as data and not as code. No
renderer knows of them, and nothing that is said of renderers depends on them.
-/

namespace GlobTree

/-- One step of a scripted drawing. -/
inductive Stroke
  /-- Emit a text. -/
  | emit (text : String)
  /-- Emit the text of the node. -/
  | raw
  /-- Emit the text in front of an opening token. -/
  | lead
  /-- Emit the text that goes with a closing token. -/
  | trail
  /-- Emit where the node stands among its siblings and where the output has got to. -/
  | whereabouts
  /-- Render the children. -/
  | children
  /-- Render the children but the opening and closing tokens. -/
  | contents
  /-- Render the children, the last one first. -/
  | backwards
  /-- Render one child, if it is there, as if it stood at the index. -/
  | child (position : Nat) (index : Nat)
  /-- Render the sibling so many places further on, if it is there. -/
  | sibling (distance : Int)
  /-- End with an error. -/
  | fail (message : String)
  /-- End with the error for nodes that nothing is registered for. -/
  | unregistered
  deriving DecidableEq, Repr

namespace Stroke

variable {K : Type}

/-- Draws one step. -/
def draw (node : Node K) (siblings : Array NodeId) (index : Nat) : Stroke → Drawing K Unit
  | emit text => .write text node
  | raw => .raw node
  | lead => .write (node.lead.getD "") node
  | trail => .write (node.trail.getD "") node
  | whereabouts => .look fun _ canvas =>
    let count := siblings.size
    let written := canvas.output.utf8ByteSize
    let place := canvas.location
    .write s!"<{index}/{count} {written} {place}>" node
  | children => .children node
  | contents => .contents node
  | backwards => Drawing.forEach (Drawing.indexed node).reverse fun (below, index) =>
    .call below node.children index
  | child position index =>
    match node.children[position]? with
    | some id => .call id node.children index
    | none => .nothing
  | sibling distance =>
    let target := (index : Int) + distance
    if target < 0 then .nothing
    else
      match siblings[target.toNat]? with
      | some id => .call id siblings target.toNat
      | none => .nothing
  | fail message => .fail (.handler message)
  | unregistered => .fail (.ofNode node)

/-- The drawing function of a script. -/
def drawAll (strokes : List Stroke) : DrawFunction K := fun node siblings index =>
  Drawing.forEach strokes (draw node siblings index)

end Stroke

end GlobTree
