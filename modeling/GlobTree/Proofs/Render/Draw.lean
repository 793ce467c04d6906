import GlobTree.Render.Renderer
/-!
# Drawing step by step

What a renderer does with the parts of a drawing, and which drawing it uses for a role.

Renderings give up when calls go too deep. `Renderer.renderWithin` is a rendering with any bound, and
one that does not give up is the same with a greater bound (`Renderer.renderWithin_of_le`).
-/

namespace GlobTree

/-- A text that is emitted comes after what was written. -/
theorem Canvas.output_emit (canvas : Canvas) (text : String) (origin : Span) :
    (canvas.emit text origin).output = canvas.output ++ text := by
  rw [emit]
  split
  next h => rw [String.isEmpty_iff.1 h, String.append_empty]
  next =>
    simp only [output, Array.toList_push, List.map_append, List.map_cons, List.map_nil,
      String.join_append]
    rfl

namespace Renderer

variable {K α β γ : Type} (document : Document K)
  (call : NodeId → Array NodeId → Nat → Canvas → Except (RenderStop K) Unit × Canvas)

/-- One drawing after the other, unless the first one fails. -/
theorem draw_bind (first : Drawing K α) (next : α → Drawing K β) (canvas : Canvas) :
    draw document call (first.bind next) canvas =
      match draw document call first canvas with
      | (.ok value, canvas) => draw document call (next value) canvas
      | (.error stop, canvas) => (.error stop, canvas) := by
  induction first generalizing canvas with
  | pure value => rfl
  | fail error => rfl
  | outOfBounds => rfl
  | emit text origin first ih => exact ih _
  | render id siblings index first ih =>
    simp only [Drawing.bind, draw]
    split
    next => exact ih _ _
    next => exact ih _ _
    next => rfl
  | look first ih => exact ih _ _ _

theorem draw_bind_of_ok {first : Drawing K α} {value : α} {canvas after : Canvas}
    (h : draw document call first canvas = (.ok value, after)) (next : α → Drawing K β) :
    draw document call (first.bind next) canvas = draw document call (next value) after := by
  rw [draw_bind, h]

/-- Calling for a node is rendering it. -/
theorem draw_call (id : NodeId) (siblings : Array NodeId) (index : Nat) (canvas : Canvas) :
    draw document call (Drawing.call id siblings index) canvas = call id siblings index canvas := by
  rw [Drawing.call, draw]
  generalize call id siblings index canvas = result
  obtain ⟨outcome, after⟩ := result
  cases outcome with
  | ok value => rfl
  | error stop => cases stop <;> rfl

/-- Drawings that do the same for each entry do the same for all. -/
theorem draw_forEach_congr {entries : List γ} {first second : γ → Drawing K Unit}
    (same : ∀ entry ∈ entries, ∀ canvas,
      draw document call (first entry) canvas = draw document call (second entry) canvas)
    (canvas : Canvas) :
    draw document call (Drawing.forEach entries first) canvas =
      draw document call (Drawing.forEach entries second) canvas := by
  induction entries generalizing canvas with
  | nil => rfl
  | cons entry entries ih =>
    have hrest := ih fun other h => same other (List.mem_cons_of_mem _ h)
    simp only [Drawing.forEach, draw_bind, same entry List.mem_cons_self, hrest]

/-! ## The drawing for a role -/

variable [DecidableEq K]

omit document call in
theorem lookup_filter_ne (functions : List (Role K × DrawFunction K)) {role other : Role K}
    (h : other ≠ role) :
    (functions.filter fun entry => entry.1 ≠ role).lookup other = functions.lookup other := by
  induction functions with
  | nil => rfl
  | cons entry functions ih =>
    obtain ⟨first, draw⟩ := entry
    by_cases hfirst : first = role
    · have hne : (other == first) = false := by
        rw [hfirst]
        simpa using h
      rw [List.filter_cons_of_neg (by simpa using hfirst), ih, List.lookup_cons, hne]
    · rw [List.filter_cons_of_pos (by simpa using hfirst), List.lookup_cons, List.lookup_cons, ih]

omit document call in
/-- The drawing for a role is the one that was set last. -/
theorem function?_register (renderer : Renderer K) (role other : Role K) (draw : DrawFunction K) :
    function? (renderer.register role draw).functions other =
      if other = role then some draw else function? renderer.functions other := by
  rw [function?, register, List.lookup_cons]
  by_cases h : other = role
  · have heq : (other == role) = true := by simpa using h
    rw [heq, if_pos h]
  · have hne : (other == role) = false := by simpa using h
    rw [hne, if_neg h]
    exact lookup_filter_ne renderer.functions h

/-! ## Renderings of any depth -/

omit [DecidableEq K] in
/-- A drawing is the same with other renderings of the nodes that it calls for, if they differ only
where it would give up. -/
theorem draw_of_deeper
    {deeper : NodeId → Array NodeId → Nat → Canvas → Except (RenderStop K) Unit × Canvas}
    (hcall : ∀ id siblings index canvas, (call id siblings index canvas).1 ≠ .error .tooDeep →
      deeper id siblings index canvas = call id siblings index canvas)
    (drawing : Drawing K α) (canvas : Canvas)
    (h : (draw document call drawing canvas).1 ≠ .error .tooDeep) :
    draw document deeper drawing canvas = draw document call drawing canvas := by
  induction drawing generalizing canvas with
  | pure value => rfl
  | fail error => rfl
  | outOfBounds => rfl
  | emit text origin next ih => exact ih _ h
  | render id siblings index next ih =>
    -- A drawing cannot catch that a node was given up, so that it would be given up itself.
    by_cases hdeep : (call id siblings index canvas).1 = .error .tooDeep
    · refine absurd ?_ h
      rw [draw]
      generalize call id siblings index canvas = outcome at hdeep
      obtain ⟨result, after⟩ := outcome
      obtain rfl : result = .error .tooDeep := hdeep
      rfl
    · rw [draw] at h
      rw [draw, draw, hcall id siblings index canvas hdeep]
      generalize call id siblings index canvas = outcome at h
      obtain ⟨result, after⟩ := outcome
      cases result with
      | ok value => exact ih _ after h
      | error stop =>
        cases stop with
        | failed error => exact ih _ after h
        | outOfBounds => rfl
        | tooDeep => rfl
  | look next ih => exact ih _ _ _ h

omit call in
/-- A node that is rendered within a bound is rendered the same within a greater one. -/
theorem renderNode_of_le (functions : List (Role K × DrawFunction K)) {n m : Nat} (hle : n ≤ m)
    (id : NodeId) (siblings : Array NodeId) (index : Nat) (canvas : Canvas)
    (h : (renderNode document functions n id siblings index canvas).1 ≠ .error .tooDeep) :
    renderNode document functions m id siblings index canvas =
      renderNode document functions n id siblings index canvas := by
  induction n generalizing m id siblings index canvas with
  | zero => exact absurd rfl h
  | succ n ih =>
    obtain ⟨m, rfl⟩ : ∃ k, m = k + 1 := ⟨m - 1, by omega⟩
    have hdeeper (id : NodeId) (siblings : Array NodeId) (index : Nat) (canvas : Canvas) :=
      ih (Nat.le_of_succ_le_succ hle) id siblings index canvas
    rw [renderNode] at h
    rw [renderNode, renderNode]
    cases hnode : document.node? id with
    | none => rfl
    | some node =>
      rw [hnode] at h
      dsimp only at h ⊢
      cases hfunction : function? functions node.role with
      | none => rfl
      | some function =>
        rw [hfunction] at h
        exact draw_of_deeper document _ hdeeper _ canvas h

/-- Renders the children of the root, with at most the given number of calls for nodes inside each
other. -/
def renderWithin (renderer : Renderer K) (depth : Nat) (document : Document K) :
    Except (RenderStop K) Rendered :=
  let root : Drawing K Unit := (Drawing.node rootId).bind Drawing.children
  let (result, canvas) := draw document (renderNode document renderer.functions depth) root {}
  result.map fun _ => rendered document renderer.options canvas

omit document call in
/-- **A rendering that does not give up is the same with a greater bound.** -/
theorem renderWithin_of_le {renderer : Renderer K} {document : Document K} {depth more : Nat}
    (h : renderer.renderWithin depth document ≠ .error .tooDeep) (hle : depth ≤ more) :
    renderer.renderWithin more document = renderer.renderWithin depth document := by
  have hdeeper := draw_of_deeper document (renderNode document renderer.functions depth)
    (renderNode_of_le document renderer.functions hle)
    ((Drawing.node rootId).bind Drawing.children) {}
  rw [renderWithin, renderWithin, hdeeper]
  intro hdeep
  refine h ?_
  rw [renderWithin]
  generalize draw document (renderNode document renderer.functions depth)
    ((Drawing.node rootId).bind Drawing.children) {} = outcome at hdeep
  obtain ⟨result, canvas⟩ := outcome
  obtain rfl : result = .error .tooDeep := hdeep
  rfl

end Renderer

end GlobTree
