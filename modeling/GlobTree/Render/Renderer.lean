import GlobTree.Render.Drawing
import GlobTree.Render.Options
import GlobTree.Render.SourceMap
/-!
# Renderers

A `Renderer` has a drawing function for each role of nodes that it can render. `Renderer.render`
renders the children of the root in order; what else is rendered is up to the drawings.

Drawings that call each other in a circle would not end. A walk that only goes down to children and
along siblings, and does not come back to where it was, is never deeper than `walkDepth`, and
deeper walks are given up.
-/

namespace GlobTree

/-- The drawing of a node, given its siblings and its index among them. -/
abbrev DrawFunction (K : Type) := Node K → Array NodeId → Nat → Drawing K Unit

/-- A rendered document. -/
structure Rendered where
  output : String
  /-- The number of fragments that were emitted. -/
  fragments : Nat
  sourceMap : Option SourceMapOutput
  deriving DecidableEq, Repr, Inhabited

/-- Why rendering stopped. -/
inductive RenderStop (K : Type)
  /-- With an error. -/
  | failed (error : RenderError K)
  /-- By reaching out of bounds. -/
  | outOfBounds
  /-- By calling deeper than any walk without circles does. -/
  | tooDeep
  deriving DecidableEq, Repr

/-- Drawing functions by role, and the output of the latest rendering. -/
structure Renderer (K : Type) where
  /-- The drawing functions, the latest first. -/
  functions : List (Role K × DrawFunction K) := []
  options : RenderOptions := {}
  /-- What the latest rendering wrote, also if it failed. -/
  partialOutput : String := ""

namespace Renderer

variable {K : Type}

/-- A renderer that can render nothing. -/
def new (options : RenderOptions) : Renderer K where
  options := options

variable [DecidableEq K]

/-- Sets the drawing function for a role. -/
def register (renderer : Renderer K) (role : Role K) (draw : DrawFunction K) : Renderer K :=
  { renderer with
    functions := (role, draw) :: renderer.functions.filter fun entry => entry.1 ≠ role }

/-- The drawing function for a role. -/
def function? (functions : List (Role K × DrawFunction K)) (role : Role K) :
    Option (DrawFunction K) :=
  functions.lookup role

/-- Whether there is a drawing function for a role. -/
def isRegistered (renderer : Renderer K) (role : Role K) : Bool :=
  (function? renderer.functions role).isSome

omit [DecidableEq K] in
/-- Draws on a canvas, where `call` renders the nodes that are called for. -/
def draw {α : Type} (document : Document K)
    (call : NodeId → Array NodeId → Nat → Canvas → Except (RenderStop K) Unit × Canvas) :
    Drawing K α → Canvas → Except (RenderStop K) α × Canvas
  | .pure value, canvas => (.ok value, canvas)
  | .fail error, canvas => (.error (.failed error), canvas)
  | .outOfBounds, canvas => (.error .outOfBounds, canvas)
  | .emit text origin next, canvas => draw document call next (canvas.emit text origin)
  | .render id siblings index next, canvas =>
    match call id siblings index canvas with
    | (.ok (), canvas) => draw document call (next (.ok ())) canvas
    | (.error (.failed error), canvas) => draw document call (next (.error error)) canvas
    | (.error stop, canvas) => (.error stop, canvas)
  | .look next, canvas => draw document call (next document canvas) canvas

/-- Renders a node, with at most the given number of calls inside each other. -/
def renderNode (document : Document K) (functions : List (Role K × DrawFunction K)) :
    Nat → NodeId → Array NodeId → Nat → Canvas → Except (RenderStop K) Unit × Canvas
  | 0, _, _, _, canvas => (.error .tooDeep, canvas)
  | n + 1, id, siblings, index, canvas =>
    match document.node? id with
    | none => (.error .outOfBounds, canvas)
    | some node =>
      match function? functions node.role with
      | none => (.error (.failed (.ofNode node)), canvas)
      | some function =>
        draw document (renderNode document functions n) (function node siblings index) canvas

/-- How deep a walk without circles can be: at every level it passes the siblings at most once
before it goes down. -/
def walkDepth (document : Document K) : Nat := 2 * document.size + 2

/-- Renders the children of the root on an empty canvas. -/
def renderCanvas (document : Document K) (functions : List (Role K × DrawFunction K)) :
    Except (RenderStop K) Unit × Canvas :=
  let root : Drawing K Unit := (Drawing.node rootId).bind Drawing.children
  draw document (renderNode document functions (walkDepth document)) root {}

omit [DecidableEq K] in
/-- The source map of what was written. -/
def sourceMap (document : Document K) (file : Option String) (canvas : Canvas) :
    SourceMapBuilder :=
  let start := (SourceMapBuilder.new file).setContent document.label document.source
  canvas.fragments.foldl
    (fun builder fragment => builder.addMapping fragment.generated fragment.origin) start

omit [DecidableEq K] in
/-- The rendered document on a canvas. -/
def rendered (document : Document K) (options : RenderOptions) (canvas : Canvas) : Rendered where
  output := canvas.output
  fragments := canvas.fragments.size
  sourceMap :=
    match options.sourceMap with
    | .disabled => none
    | .enabled => some (.map (sourceMap document options.file canvas).finish)
    | .generator => some (.generator (sourceMap document options.file canvas))

/-- Renders a document. The renderer keeps what was written. -/
def render (renderer : Renderer K) (document : Document K) :
    Except (RenderStop K) Rendered × Renderer K :=
  let (result, canvas) := renderCanvas document renderer.functions
  (result.map fun _ => rendered document renderer.options canvas,
    { renderer with partialOutput := canvas.output })

end Renderer

end GlobTree
