import GlobTree.Extglob.Basic
import GlobTree.Proofs.Render.Draw
import GlobTree.Proofs.Render.SourceMap
/-!
# What a rendering depends on

A renderer can do with less than a canvas: in a single pass it appends to one buffer, counts the texts
that are not empty, and notes mappings only if there is going to be a source map (`Pass`). The buffer
is the renderer's own, and may hold what an earlier rendering left in it.

* A drawing is `Drawing.Discreet` if it looks at nothing of the canvas but the text and the place that
  it has got to. For renderers with such drawings, a pass comes to the same as a rendering
  (`Renderer.pass_eq_render`), since each step of the pass is that of the canvas (`Pass.draw_ofCanvas`).
* The drawings for texts as they were written, those for regular expressions and the stock drawings
  are discreet.
* So neither the options for source maps nor what was rendered before make a difference to the text
  of a rendering or to its error (`Renderer.render_independent`).
-/

namespace GlobTree

/-! ## Drawings that see little -/

namespace Drawing

variable {K α β γ : Type}

/-- A drawing looks at no more of a canvas than its text and the place that it has got to. -/
def Discreet : Drawing K α → Prop
  | .pure _ | .fail _ | .outOfBounds => True
  | .emit _ _ next => next.Discreet
  | .render _ _ _ next => ∀ result, (next result).Discreet
  | .look next => ∀ document canvas, (next document canvas).Discreet ∧
    ∀ other : Canvas, other.output = canvas.output → other.location = canvas.location →
      next document other = next document canvas

theorem Discreet.bind {first : Drawing K α} {next : α → Drawing K β} (hfirst : first.Discreet)
    (hnext : ∀ value, (next value).Discreet) : (first.bind next).Discreet := by
  induction first with
  | pure value => exact hnext value
  | fail | outOfBounds => trivial
  | emit text origin first ih => exact ih hfirst
  | render id siblings index first ih => exact fun result => ih result (hfirst result)
  | look first ih =>
    intro document canvas
    refine ⟨ih document canvas (hfirst document canvas).1, fun other houtput hlocation => ?_⟩
    exact congrArg (·.bind next) ((hfirst document canvas).2 other houtput hlocation)

theorem discreet_write (text : String) (node : Node K) : (write text node).Discreet := trivial

theorem discreet_call (id : NodeId) (siblings : Array NodeId) (index : Nat) :
    (call id siblings index : Drawing K Unit).Discreet
  | .ok () => trivial
  | .error _ => trivial

theorem discreet_ofOption (value : Option α) : (ofOption value : Drawing K α).Discreet := by
  cases value <;> trivial

/-- A drawing that looks at the document only. -/
theorem discreet_look {next : Document K → Drawing K α} (h : ∀ document, (next document).Discreet) :
    (Drawing.look fun document _ => next document).Discreet :=
  fun document _ => ⟨h document, fun _ _ _ => rfl⟩

theorem discreet_node (id : NodeId) : (node id : Drawing K (Node K)).Discreet :=
  discreet_look fun document => discreet_ofOption (document.node? id)

theorem discreet_forEach {entries : List γ} {draw : γ → Drawing K Unit}
    (h : ∀ entry, (draw entry).Discreet) : (forEach entries draw).Discreet := by
  induction entries with
  | nil => trivial
  | cons entry entries ih => exact (h entry).bind fun _ => ih

theorem discreet_children (node : Node K) : (children node).Discreet :=
  discreet_forEach fun (child, index) => discreet_call child node.children index

theorem discreet_contents (node : Node K) : (contents node).Discreet := by
  refine discreet_forEach fun (child, index) => (discreet_node child).bind fun below => ?_
  split
  · trivial
  · exact discreet_call child node.children index

end Drawing

/-! ## Single passes -/

/-- What a renderer keeps while it goes through a document. -/
structure Pass where
  /-- The text in the buffer. -/
  output : String
  /-- Where the next text will start. -/
  location : Location := .start
  /-- The mappings so far, if there is going to be a source map. -/
  mappings : Option (Array Mapping)
  /-- The number of texts that were emitted. -/
  fragments : Nat := 0
  deriving DecidableEq, Repr

namespace Pass

variable {K α : Type}

/-- Empties the buffer. -/
def clear (pass : Pass) : Pass := { pass with output := "" }

/-- Emits a text. The empty text does not count. -/
def emit (pass : Pass) (text : String) (origin : Span) : Pass :=
  if text.isEmpty then pass
  else
    { output := pass.output ++ text
      location := pass.location.advance text.toList
      mappings := pass.mappings.map (·.push ⟨pass.location, origin⟩)
      fragments := pass.fragments + 1 }

/-- What there is to be seen of a pass: the text, in one piece, and the place that it has got to. -/
def canvas (pass : Pass) : Canvas where
  fragments := #[⟨pass.output, .start, .point .start ""⟩]
  location := pass.location

/-- Draws in a pass, where `call` renders the nodes that are called for. -/
def draw (document : Document K)
    (call : NodeId → Array NodeId → Nat → Pass → Except (RenderStop K) Unit × Pass) :
    Drawing K α → Pass → Except (RenderStop K) α × Pass
  | .pure value, pass => (.ok value, pass)
  | .fail error, pass => (.error (.failed error), pass)
  | .outOfBounds, pass => (.error .outOfBounds, pass)
  | .emit text origin next, pass => draw document call next (pass.emit text origin)
  | .render id siblings index next, pass =>
    match call id siblings index pass with
    | (.ok (), pass) => draw document call (next (.ok ())) pass
    | (.error (.failed error), pass) => draw document call (next (.error error)) pass
    | (.error stop, pass) => (.error stop, pass)
  | .look next, pass => draw document call (next document pass.canvas) pass

/-- Renders a node in a pass, with at most the given number of calls inside each other. -/
def renderNode [DecidableEq K] (document : Document K)
    (functions : List (Role K × DrawFunction K)) :
    Nat → NodeId → Array NodeId → Nat → Pass → Except (RenderStop K) Unit × Pass
  | 0, _, _, _, pass => (.error .tooDeep, pass)
  | n + 1, id, siblings, index, pass =>
    match document.node? id with
    | none => (.error .outOfBounds, pass)
    | some node =>
      match Renderer.function? functions node.role with
      | none => (.error (.failed (.ofNode node)), pass)
      | some function =>
        draw document (renderNode document functions n) (function node siblings index) pass

/-- The source map with the mappings that a pass noted. -/
def sourceMap (document : Document K) (options : RenderOptions) (mappings : Array Mapping) :
    SourceMapOutput :=
  let start := (SourceMapBuilder.new options.file).setContent document.label document.source
  let builder := mappings.foldl
    (fun builder mapping => builder.addMapping mapping.generated mapping.origin) start
  match options.sourceMap with
  | .generator => .generator builder
  | _ => .map builder.finish

end Pass

/-- Renders a document in a single pass, on the buffer with what the latest rendering wrote. -/
def Renderer.pass {K : Type} [DecidableEq K] (renderer : Renderer K) (document : Document K) :
    Except (RenderStop K) Rendered × Renderer K :=
  let tracked : Bool := renderer.options.sourceMap ≠ .disabled
  let start : Pass :=
    { output := renderer.partialOutput
      mappings := if tracked then some #[] else none }
  let root : Drawing K Unit := (Drawing.node rootId).bind Drawing.children
  let (result, pass) := Pass.draw document
    (Pass.renderNode document renderer.functions (walkDepth document)) root start.clear
  (result.map fun _ =>
    ⟨pass.output, pass.fragments, pass.mappings.map (Pass.sourceMap document renderer.options)⟩,
    { renderer with partialOutput := pass.output })

namespace Pass

variable {K α : Type} (tracked : Bool)

/-- The pass that has got to where a canvas has. -/
def ofCanvas (canvas : Canvas) : Pass where
  output := canvas.output
  location := canvas.location
  mappings := if tracked then some (canvas.fragments.map Fragment.mapping) else none
  fragments := canvas.fragments.size

theorem output_canvas (pass : Pass) : pass.canvas.output = pass.output := by
  simp [canvas, Canvas.output]

/-- **Emitting a text comes to the same.** -/
theorem emit_ofCanvas (canvas : Canvas) (text : String) (origin : Span) :
    (ofCanvas tracked canvas).emit text origin = ofCanvas tracked (canvas.emit text origin) := by
  have houtput := canvas.output_emit text origin
  rw [Canvas.emit] at houtput ⊢
  rw [emit]
  split
  next => rfl
  next h =>
    rw [if_neg h] at houtput
    cases tracked <;> simp [ofCanvas, houtput, Fragment.mapping]

variable {tracked} {document : Document K}

/-- **A discreet drawing does in a pass what it does on a canvas.** -/
theorem draw_ofCanvas
    {call : NodeId → Array NodeId → Nat → Canvas → Except (RenderStop K) Unit × Canvas}
    {callInPass : NodeId → Array NodeId → Nat → Pass → Except (RenderStop K) Unit × Pass}
    (hcall : ∀ child siblings index canvas,
      callInPass child siblings index (ofCanvas tracked canvas) =
        (call child siblings index canvas).map id (ofCanvas tracked))
    {drawing : Drawing K α} (discreet : drawing.Discreet) (canvas : Canvas) :
    draw document callInPass drawing (ofCanvas tracked canvas) =
      (Renderer.draw document call drawing canvas).map id (ofCanvas tracked) := by
  induction drawing generalizing canvas with
  | pure value => rfl
  | fail error => rfl
  | outOfBounds => rfl
  | emit text origin next ih =>
    rw [draw, emit_ofCanvas]
    exact ih discreet _
  | render id siblings index next ih =>
    -- The node is rendered alike, and how the drawing goes on depends on the outcome.
    rw [draw, Renderer.draw, hcall]
    generalize call id siblings index canvas = outcome
    obtain ⟨result, after⟩ := outcome
    cases result with
    | ok value => exact ih _ (discreet _) after
    | error stop =>
      cases stop with
      | failed error => exact ih _ (discreet _) after
      | outOfBounds => rfl
      | tooDeep => rfl
  | look next ih =>
    obtain ⟨hnext, hsame⟩ := discreet document canvas
    have hview : next document (ofCanvas tracked canvas).canvas = next document canvas :=
      hsame _ (output_canvas _) rfl
    rw [draw, hview]
    exact ih _ _ hnext canvas

end Pass

/-! ## Renderers with discreet drawings -/

namespace Renderer

variable {K : Type} [DecidableEq K]

omit [DecidableEq K] in
/-- All drawing functions make discreet drawings. -/
def Discreet (functions : List (Role K × DrawFunction K)) : Prop :=
  ∀ entry ∈ functions, ∀ node siblings index, (entry.2 node siblings index).Discreet

theorem Discreet.of_function? {functions : List (Role K × DrawFunction K)}
    (discreet : Discreet functions) {role : Role K} {function : DrawFunction K}
    (h : function? functions role = some function) (node : Node K) (siblings : Array NodeId)
    (index : Nat) : (function node siblings index).Discreet := by
  obtain ⟨before, after, rfl, -⟩ := List.lookup_eq_some_iff.1 h
  exact discreet (role, function) (by simp) node siblings index

theorem discreet_register {renderer : Renderer K} (discreet : Discreet renderer.functions)
    (role : Role K) {function : DrawFunction K}
    (h : ∀ node siblings index, (function node siblings index).Discreet) :
    Discreet (renderer.register role function).functions := by
  intro entry hentry
  rcases List.mem_cons.1 hentry with rfl | hentry
  · exact h
  · exact discreet entry ((List.mem_filter.1 hentry).1)

variable {tracked : Bool} {document : Document K}

theorem renderNode_ofCanvas {functions : List (Role K × DrawFunction K)}
    (discreet : Discreet functions) (n : Nat) (child : NodeId) (siblings : Array NodeId)
    (index : Nat) (canvas : Canvas) :
    Pass.renderNode document functions n child siblings index (Pass.ofCanvas tracked canvas) =
      (renderNode document functions n child siblings index canvas).map id
        (Pass.ofCanvas tracked) := by
  induction n generalizing child siblings index canvas with
  | zero => rfl
  | succ n ih =>
    rw [Pass.renderNode, renderNode]
    cases document.node? child with
    | none => rfl
    | some node =>
      dsimp only
      cases hfunction : function? functions node.role with
      | none => rfl
      | some function =>
        exact Pass.draw_ofCanvas ih (discreet.of_function? hfunction node siblings index) canvas

omit [DecidableEq K] in
/-- The mappings that a pass notes make the source map of the canvas. -/
theorem sourceMap_ofCanvas (options : RenderOptions) (canvas : Canvas) :
    (Pass.ofCanvas (options.sourceMap ≠ .disabled) canvas).mappings.map
        (Pass.sourceMap document options) =
      (rendered document options canvas).sourceMap := by
  have hfold : (canvas.fragments.map Fragment.mapping).foldl
      (fun builder mapping => builder.addMapping mapping.generated mapping.origin)
      ((SourceMapBuilder.new options.file).setContent document.label document.source) =
        sourceMap document options.file canvas := Array.foldl_map ..
  rw [rendered]
  cases hmode : options.sourceMap with
  | disabled => rfl
  | enabled | generator =>
    simp only [Pass.ofCanvas, decide_true, ne_eq, reduceCtorEq, not_false_eq_true, if_true,
      Option.map_some, Pass.sourceMap, hmode, hfold]

/-- **A single pass comes to the same as a rendering**, whatever was left in the buffer, if all
drawings are discreet. -/
theorem pass_eq_render {renderer : Renderer K} (discreet : Discreet renderer.functions)
    (document : Document K) : renderer.pass document = renderer.render document := by
  let root : Drawing K Unit := (Drawing.node rootId).bind Drawing.children
  have hroot : root.Discreet := (Drawing.discreet_node rootId).bind Drawing.discreet_children
  let tracked : Bool := renderer.options.sourceMap ≠ .disabled
  have hrun : Pass.draw document
      (Pass.renderNode document renderer.functions (walkDepth document)) root
        (Pass.ofCanvas tracked {}) =
      (renderCanvas document renderer.functions).map id (Pass.ofCanvas tracked) :=
    Pass.draw_ofCanvas (renderNode_ofCanvas discreet (walkDepth document)) hroot {}
  have hstart : Pass.clear
      { output := renderer.partialOutput, mappings := if tracked then some #[] else none } =
        Pass.ofCanvas tracked {} := by
    cases tracked <;> simp [Pass.clear, Pass.ofCanvas, Canvas.output]
  simp only [pass, render]
  rw [hstart, hrun]
  generalize renderCanvas document renderer.functions = outcome
  obtain ⟨result, canvas⟩ := outcome
  cases result with
  | error stop => rfl
  | ok value =>
    have hmap : (Pass.ofCanvas tracked canvas).mappings.map
        (Pass.sourceMap document renderer.options) =
          (rendered document renderer.options canvas).sourceMap := sourceMap_ofCanvas _ canvas
    have hrendered : (⟨canvas.output, canvas.fragments.size,
        (Pass.ofCanvas tracked canvas).mappings.map (Pass.sourceMap document renderer.options)⟩ :
          Rendered) = rendered document renderer.options canvas := by
      rw [hmap]
      rfl
    exact congrArg (fun result => (Except.ok result, _)) hrendered

/-! ## Two renderings -/

omit [DecidableEq K] in
/-- Two renderings come to the same: both succeed with the same text, in as many fragments, or both
stop for the same reason, with the same text written. -/
def Agree (first second : Except (RenderStop K) Rendered × Renderer K) : Prop :=
  match first.1, second.1 with
  | .ok rendered, .ok other =>
    rendered.output = other.output ∧ rendered.fragments = other.fragments
  | .error stop, .error other =>
    stop = other ∧ first.2.partialOutput = second.2.partialOutput
  | _, _ => False

omit [DecidableEq K] in
/-- If two renderings succeed, they have source maps that are the same when they are finished. -/
def SameMap (first second : Except (RenderStop K) Rendered) : Prop :=
  ∀ rendered other, first = .ok rendered → second = .ok other →
    ∃ map another, rendered.sourceMap = some map ∧ other.sourceMap = some another ∧
      map.toMap = another.toMap

/-- Renders several documents, whatever comes of each. -/
def renderAll (renderer : Renderer K) (documents : List (Document K)) : Renderer K :=
  documents.foldl (fun renderer document => (renderer.render document).2) renderer

/-- Renderers that differ in their options only render every document alike, each in a single pass,
whatever they have rendered before. -/
def Independent (make : RenderOptions → Renderer K) : Prop :=
  ∀ (options other : RenderOptions) (before earlier : List (Document K)) (document : Document K),
    let first := (make options).renderAll before
    let second := (make other).renderAll earlier
    first.pass document = first.render document ∧
      Agree (first.render document) (second.render document) ∧
      (options.sourceMap = .enabled → other.sourceMap = .generator → options.file = other.file →
        SameMap (first.render document).1 (second.render document).1)

/-- Rendering changes no drawing function and no option. -/
theorem setup_renderAll (renderer : Renderer K) (documents : List (Document K)) :
    (renderer.renderAll documents).functions = renderer.functions ∧
      (renderer.renderAll documents).options = renderer.options := by
  induction documents generalizing renderer with
  | nil => exact ⟨rfl, rfl⟩
  | cons document documents ih => exact ih (renderer.render document).2

/-- Renderers with the same drawing functions agree, whatever their options and their buffers. -/
theorem agree_of_functions_eq {first second : Renderer K}
    (h : first.functions = second.functions) (document : Document K) :
    Agree (first.render document) (second.render document) := by
  rw [render, render, h]
  generalize renderCanvas document second.functions = outcome
  obtain ⟨result, canvas⟩ := outcome
  cases result with
  | ok value => exact ⟨rfl, rfl⟩
  | error stop => exact ⟨rfl, rfl⟩

theorem sameMap_of_functions_eq {first second : Renderer K}
    (h : first.functions = second.functions) (hfirst : first.options.sourceMap = .enabled)
    (hsecond : second.options.sourceMap = .generator)
    (hfile : first.options.file = second.options.file) (document : Document K) :
    SameMap (first.render document).1 (second.render document).1 := by
  rw [render, render, h]
  generalize renderCanvas document second.functions = outcome
  obtain ⟨result, canvas⟩ := outcome
  intro one other hone hother
  cases result with
  | error stop => cases hone
  | ok value =>
    obtain rfl := Except.ok.inj hone
    obtain rfl := Except.ok.inj hother
    refine ⟨.map (sourceMap document first.options.file canvas).finish,
      .generator (sourceMap document second.options.file canvas), ?_, ?_, ?_⟩
    · rw [rendered, hfirst]
    · rw [rendered, hsecond]
    · rw [hfile]
      rfl

/-- **Renderers with discreet drawings that do not depend on the options are independent of them.** -/
theorem independent_of_discreet {make : RenderOptions → Renderer K}
    {functions : List (Role K × DrawFunction K)} (discreet : Discreet functions)
    (hfunctions : ∀ options, (make options).functions = functions)
    (hoptions : ∀ options, (make options).options = options) : Independent make := by
  intro options other before earlier document first second
  obtain ⟨hfirst, hfirst'⟩ := setup_renderAll (make options) before
  obtain ⟨hsecond, hsecond'⟩ := setup_renderAll (make other) earlier
  rw [hfunctions] at hfirst hsecond
  rw [hoptions] at hfirst' hsecond'
  have hsame : first.functions = second.functions := hfirst.trans hsecond.symm
  refine ⟨pass_eq_render (hfirst ▸ discreet) document, agree_of_functions_eq hsame document, ?_⟩
  intro henabled hgenerator hfile
  refine sameMap_of_functions_eq hsame ?_ ?_ ?_ document
  · rw [hfirst', henabled]
  · rw [hsecond', hgenerator]
  · rw [hfirst', hsecond', hfile]

/-! ## Stock drawings -/

/-- The drawing functions that any renderer can use. -/
inductive Stock
  /-- Emits the text of the node. -/
  | raw
  /-- Renders the children of the node. -/
  | children
  /-- Emits nothing. -/
  | nothing
  deriving DecidableEq, Repr

omit [DecidableEq K] in
/-- A stock drawing function. -/
def Stock.function : Stock → DrawFunction K
  | raw => fun node _ _ => .raw node
  | children => fun node _ _ => .children node
  | nothing => fun _ _ _ => .nothing

omit [DecidableEq K] in
theorem Stock.discreet (stock : Stock) (node : Node K) (siblings : Array NodeId) (index : Nat) :
    (stock.function node siblings index).Discreet := by
  cases stock with
  | raw => exact Drawing.discreet_write node.raw node
  | children => exact Drawing.discreet_children node
  | nothing => trivial

/-- A renderer with stock drawing functions, which are registered in order. -/
def ofStock (entries : List (Role K × Stock)) (options : RenderOptions) : Renderer K :=
  entries.foldl (fun renderer entry => renderer.register entry.1 entry.2.function) (new options)

/-- What is registered does not depend on the options. -/
theorem functions_foldl_register {first second : Renderer K}
    (h : first.functions = second.functions) (entries : List (Role K × Stock)) :
    (entries.foldl (fun renderer entry => renderer.register entry.1 entry.2.function)
        first).functions =
      (entries.foldl (fun renderer entry => renderer.register entry.1 entry.2.function)
        second).functions := by
  induction entries generalizing first second with
  | nil => exact h
  | cons entry entries ih => exact ih (by simp only [register, h])

theorem options_foldl_register (entries : List (Role K × Stock)) (renderer : Renderer K) :
    (entries.foldl (fun renderer entry => renderer.register entry.1 entry.2.function)
      renderer).options = renderer.options := by
  induction entries generalizing renderer with
  | nil => rfl
  | cons entry entries ih => exact ih _

theorem discreet_foldl_register (entries : List (Role K × Stock)) {renderer : Renderer K}
    (discreet : Discreet renderer.functions) :
    Discreet (entries.foldl (fun renderer entry => renderer.register entry.1 entry.2.function)
      renderer).functions := by
  induction entries generalizing renderer with
  | nil => exact discreet
  | cons entry entries ih => exact ih (discreet_register discreet entry.1 entry.2.discreet)

/-- **Renderers with stock drawings are independent of their options.** -/
theorem independent_ofStock (entries : List (Role K × Stock)) : Independent (ofStock entries) := by
  have hnew : Discreet (new {} : Renderer K).functions := fun entry hentry => by cases hentry
  refine independent_of_discreet (discreet_foldl_register entries hnew) (fun options => ?_)
    fun options => options_foldl_register entries (new options)
  have hsame : (new options : Renderer K).functions = (new {}).functions := rfl
  exact functions_foldl_register hsame entries

end Renderer

/-! ## Renderers for patterns -/

namespace Extglob

open Drawing Renderer

/-- What is registered to write patterns as they were. -/
def verbatimStock : List (Role Kind × Stock) :=
  (.eos, .nothing) :: Kind.tokens.map (fun kind => (.token kind, .raw)) ++
    Kind.groups.flatMap fun kind =>
      [(.group kind, .children), (.opening kind, .raw), (.closing kind, .raw)]

theorem verbatimRenderer_eq : verbatimRenderer = ofStock verbatimStock := by
  funext options
  rfl

theorem discreet_requireClosed (node : Node Kind) (siblings : Array NodeId) (index : Nat) :
    (requireClosed node siblings index).Discreet := by
  refine (discreet_ofOption _).bind fun id => ?_
  refine (discreet_look fun document => discreet_ofOption (document.isClosed? id)).bind fun closed => ?_
  split <;> trivial

theorem discreet_drawQuoted (node : Node Kind) : (drawQuoted node).Discreet :=
  (discreet_ofOption _).bind fun _ => trivial

theorem discreet_drawComma (node : Node Kind) : (drawComma node).Discreet := by
  rw [drawComma]
  split
  · trivial
  · exact (discreet_node _).bind fun _ => trivial

theorem discreet_drawParen (node : Node Kind) (siblings : Array NodeId) (index : Nat) :
    (drawParen node siblings index).Discreet := by
  refine (discreet_requireClosed node siblings index).bind fun _ => ?_
  split
  · trivial
  · refine (discreet_write _ node).bind fun _ => (discreet_contents node).bind fun _ => ?_
    trivial

theorem discreet_drawBrace (node : Node Kind) (siblings : Array NodeId) (index : Nat) :
    (drawBrace node siblings index).Discreet :=
  (discreet_requireClosed node siblings index).bind fun _ =>
    (discreet_write _ node).bind fun _ => (discreet_contents node).bind fun _ => trivial

theorem discreet_drawMember (child : Node Kind) : (drawMember child).Discreet := by
  rw [drawMember]
  split
  · trivial
  · trivial
  · trivial
  · exact (discreet_ofOption _).bind fun _ => trivial
  · trivial
  · trivial

theorem discreet_drawBracket (node : Node Kind) (siblings : Array NodeId) (index : Nat) :
    (drawBracket node siblings index).Discreet := by
  refine (discreet_requireClosed node siblings index).bind fun _ => ?_
  refine (discreet_look fun document => discreet_ofOption _).bind fun children => ?_
  have hdone : ((Drawing.write (if node.lead.isSome then "[^" else "[") node).bind fun _ =>
      (forEach children drawMember).bind fun _ => Drawing.write "]" node).Discreet :=
    (discreet_write _ node).bind fun _ => (discreet_forEach discreet_drawMember).bind fun _ => trivial
  cases hall : children.all (·.role.isDelimiter)
  · simp only [Bool.false_eq_true, if_false]
    exact hdone
  · simp only [if_true]
    trivial

/-- **What is drawn for regular expressions is discreet.** -/
theorem discreet_regexRenderer (options : RenderOptions) :
    Discreet (regexRenderer options).functions := by
  have hplain (draw : Node Kind → Drawing Kind Unit) (h : ∀ node, (draw node).Discreet)
      (node : Node Kind) (_ : Array NodeId) (_ : Nat) : (draw node).Discreet := h node
  have hwrite (text : Node Kind → String) := hplain (fun node => .write (text node) node)
    fun node => discreet_write (text node) node
  simp only [Renderer.Discreet, regexRenderer, List.forall_mem_cons]
  exact ⟨hplain _ fun _ => trivial, hwrite _, hwrite _, hplain _ discreet_drawQuoted, hwrite _,
    hwrite _, hwrite _, hwrite _, hwrite _, hplain _ discreet_drawComma, discreet_drawParen,
    discreet_drawBrace, discreet_drawBracket, List.forall_mem_nil _⟩

end Extglob

/-- **What is rendered depends on the document only**, and neither on the options for source maps nor
on what was rendered before. -/
theorem Renderer.render_independent :
    Independent Extglob.verbatimRenderer ∧ Independent Extglob.regexRenderer ∧
      ∀ (K : Type) [DecidableEq K] (entries : List (Role K × Stock)),
        Independent (ofStock entries) := by
  refine ⟨?_, ?_, fun K _ entries => independent_ofStock entries⟩
  · rw [Extglob.verbatimRenderer_eq]
    exact independent_ofStock Extglob.verbatimStock
  · exact independent_of_discreet (Extglob.discreet_regexRenderer {}) (fun _ => rfl) fun _ => rfl

/-- A renderer that has failed on another document before, and one with other options that has not. -/
theorem Renderer.render_independent_after_failure :
    ∃ bad good, Extglob.parse "a!(b)" {} = .ok bad ∧ Extglob.parse "\x7ba,b\x7d" {} = .ok good ∧
      let first := (Extglob.regexRenderer ⟨.enabled, some "out"⟩).renderAll [bad]
      let second := (Extglob.regexRenderer ⟨.generator, some "out"⟩).renderAll []
      first.partialOutput = "a" ∧ Agree (first.render good) (second.render good) ∧
        SameMap (first.render good).1 (second.render good).1 := by
  have hbad : (Extglob.parse "a!(b)" {}).toOption.map (fun bad =>
      ((Extglob.regexRenderer ⟨.enabled, some "out"⟩).renderAll [bad]).partialOutput) =
        some "a" := by decide +kernel
  have hgood : (Extglob.parse "\x7ba,b\x7d" {}).isOk = true := by decide +kernel
  cases hparse : Extglob.parse "a!(b)" {} with
  | error stop => simp [hparse, Except.toOption] at hbad
  | ok bad =>
    cases hparse' : Extglob.parse "\x7ba,b\x7d" {} with
    | error stop => simp [hparse', Except.isOk, Except.toBool] at hgood
    | ok good =>
      rw [hparse] at hbad
      obtain ⟨-, hregex, -⟩ := render_independent
      obtain ⟨-, hagree, hmap⟩ :=
        hregex ⟨.enabled, some "out"⟩ ⟨.generator, some "out"⟩ [bad] [] good
      exact ⟨bad, good, rfl, rfl, Option.some.inj hbad, hagree, hmap rfl rfl rfl⟩

end GlobTree
