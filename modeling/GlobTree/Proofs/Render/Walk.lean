import GlobTree.Proofs.Render.Independence
import GlobTree.Proofs.Tree.Made
import Mathlib.Data.List.Induction
/-!
# The walk of a renderer

A renderer with stock drawings comes to the children of the root and to the children of the nodes
that are registered for having their children rendered, each node before those below it
(`Document.Visits`). It emits the texts of the nodes that are registered for that, and the first node
that is not registered at all ends the walk, however deep it is (`Renderer.Drawn`).

So a document can be rendered exactly if all nodes on the way are registered, and what is written, be
it the whole or the part before the error, is told by the nodes on the way
(`Renderer.render_visits`). The induction is on the tree that the root reaches; that calls are never
too deep is part of it.
-/

namespace GlobTree

variable {K : Type}

/-! ## The nodes on the way -/

/-- The nodes that a walk comes to from a list of numbers, each before those below it. The walk goes
down below the nodes of certain roles only. -/
inductive Document.Visits (document : Document K) (into : Role K → Bool) :
    List NodeId → List (Node K) → Prop
  | nil : document.Visits into [] []
  | cons {id : NodeId} {ids : List NodeId} {node : Node K} {below rest : List (Node K)}
      (found : document.node? id = some node)
      (down : document.Visits into (if into node.role then node.children.toList else []) below)
      (along : document.Visits into ids rest) :
      document.Visits into (id :: ids) (node :: (below ++ rest))

/-- There is only one way. -/
theorem Document.Visits.unique {document : Document K} {into : Role K → Bool} {ids : List NodeId}
    {visited other : List (Node K)} (h : document.Visits into ids visited)
    (hother : document.Visits into ids other) : other = visited := by
  induction h generalizing other with
  | nil =>
    cases hother
    rfl
  | cons found down along ihdown ihalong =>
    cases hother with
    | cons found' down' along' =>
      obtain rfl := Option.some.inj (found.symm.trans found')
      rw [ihdown down', ihalong along']

variable [DecidableEq K]

namespace Renderer

/-! ## What is registered -/

/-- The stock drawing for a role, which is the one that was registered last. -/
def stock? (entries : List (Role K × Stock)) (role : Role K) : Option Stock :=
  entries.reverse.lookup role

/-- The roles of nodes whose children are rendered. -/
def descends (entries : List (Role K × Stock)) (role : Role K) : Bool :=
  stock? entries role = some .children

/-- Something is registered for a node. -/
def covers (entries : List (Role K × Stock)) (node : Node K) : Bool :=
  (stock? entries node.role).isSome

/-- The texts of those nodes that are registered for being emitted, in order. -/
def rawText (entries : List (Role K × Stock)) (nodes : List (Node K)) : String :=
  String.join ((nodes.filter fun node => stock? entries node.role = some .raw).map (·.raw))

theorem rawText_nil (entries : List (Role K × Stock)) : rawText entries [] = "" := rfl

theorem rawText_append (entries : List (Role K × Stock)) (first second : List (Node K)) :
    rawText entries (first ++ second) = rawText entries first ++ rawText entries second := by
  rw [rawText, List.filter_append, List.map_append, String.join_append]
  rfl

theorem rawText_cons_of_ne {entries : List (Role K × Stock)} {node : Node K}
    (h : stock? entries node.role ≠ some .raw) (nodes : List (Node K)) :
    rawText entries (node :: nodes) = rawText entries nodes := by
  rw [rawText, List.filter_cons_of_neg (by simpa using h), rawText]

/-- The drawing function of a renderer with stock drawings. -/
theorem function?_ofStock (entries : List (Role K × Stock)) (options : RenderOptions)
    (role : Role K) :
    function? (ofStock entries options).functions role =
      (stock? entries role).map Stock.function := by
  induction entries using List.reverseRecOn with
  | nil => rfl
  | append_singleton entries entry ih =>
    obtain ⟨other, stock⟩ := entry
    rw [ofStock, List.foldl_append, List.foldl_cons, List.foldl_nil, function?_register,
      ← ofStock, ih, stock?, stock?, List.reverse_concat, List.lookup_cons]
    by_cases h : role = other
    · simp [h]
    · have hne : (role == other) = false := by simpa using h
      rw [if_neg h, hne]

/-! ## Drawing the nodes on the way -/

/-- What comes of drawing the nodes on the way on a canvas. Either all of them are registered, and
their texts are emitted, or there is a first one that is not, which is the error after the texts of
the nodes before it. -/
inductive Drawn (entries : List (Role K × Stock)) (before : Canvas) :
    List (Node K) → Except (RenderStop K) Unit × Canvas → Prop
  | whole {visited : List (Node K)} {after : Canvas}
      (all : ∀ node ∈ visited, covers entries node = true)
      (output : after.output = before.output ++ rawText entries visited) :
      Drawn entries before visited (.ok (), after)
  | part {earlier later : List (Node K)} {node : Node K} {after : Canvas}
      (all : ∀ other ∈ earlier, covers entries other = true)
      (missing : covers entries node = false)
      (output : after.output = before.output ++ rawText entries earlier) :
      Drawn entries before (earlier ++ node :: later) (.error (.failed (.ofNode node)), after)

variable {document : Document K} {entries : List (Role K × Stock)}
  {functions : List (Role K × DrawFunction K)} {canvas : Canvas}

/-- **One part of the way after the other.** An error in the first part ends the walk. -/
theorem Drawn.bind
    {call : NodeId → Array NodeId → Nat → Canvas → Except (RenderStop K) Unit × Canvas}
    {first second : List (Node K)} {drawing next : Drawing K Unit}
    (hfirst : Drawn entries canvas first (draw document call drawing canvas))
    (hsecond : ∀ after, Drawn entries after second (draw document call next after)) :
    Drawn entries canvas (first ++ second)
      (draw document call (drawing.bind fun _ => next) canvas) := by
  rw [draw_bind]
  generalize draw document call drawing canvas = outcome at hfirst
  cases hfirst with
  | part all missing output =>
    rw [List.append_assoc]
    exact .part all missing output
  | whole all output =>
    rename_i middle
    have hnext := hsecond middle
    dsimp only
    generalize draw document call next middle = outcome at hnext
    cases hnext with
    | whole all' output' =>
      refine .whole (List.forall_mem_append.2 ⟨all, all'⟩) ?_
      rw [output', output, rawText_append, String.append_assoc]
    | part all' missing output' =>
      rw [← List.append_assoc]
      refine .part (List.forall_mem_append.2 ⟨all, all'⟩) missing ?_
      rw [output', output, rawText_append, String.append_assoc]

/-- Nothing is drawn for a node that is registered for something else than its text. -/
theorem Drawn.cons_of_ne {stock : Stock} {node : Node K} {visited : List (Node K)}
    {outcome : Except (RenderStop K) Unit × Canvas} (hstock : stock? entries node.role = some stock)
    (hne : stock ≠ .raw) (h : Drawn entries canvas visited outcome) :
    Drawn entries canvas (node :: visited) outcome := by
  have hcovers : covers entries node = true := by rw [covers, hstock]; rfl
  have hraw : stock? entries node.role ≠ some .raw := by rw [hstock]; simpa using hne
  cases h with
  | whole all output =>
    refine .whole (List.forall_mem_cons.2 ⟨hcovers, all⟩) ?_
    rw [output, rawText_cons_of_ne hraw]
  | part all missing output =>
    rw [← List.cons_append]
    refine .part (List.forall_mem_cons.2 ⟨hcovers, all⟩) missing ?_
    rw [output, rawText_cons_of_ne hraw]

/-- **Rendering a node** draws it, and what is on the way below it if its children are rendered. -/
theorem drawn_renderNode {n : Nat} {id : NodeId} {node : Node K} {lower : List (Node K)}
    (hfunctions : ∀ role, function? functions role = (stock? entries role).map Stock.function)
    (hnode : document.node? id = some node)
    (hlower : Drawn entries canvas lower
      (draw document (renderNode document functions n) (Drawing.children node) canvas))
    (siblings : Array NodeId) (index : Nat) :
    Drawn entries canvas (node :: if descends entries node.role then lower else [])
      (renderNode document functions (n + 1) id siblings index canvas) := by
  rw [renderNode, hnode]
  dsimp only
  rw [hfunctions]
  cases hstock : stock? entries node.role with
  | none =>
    have hmissing : covers entries node = false := by rw [covers, hstock]; rfl
    rw [← List.nil_append (node :: _)]
    refine .part (List.forall_mem_nil _) hmissing ?_
    rw [rawText_nil, String.append_empty]
  | some stock =>
    rw [Option.map_some]
    cases stock with
    | raw =>
      rw [if_neg (by simp [descends, hstock])]
      simp only [Stock.function, Drawing.raw, Drawing.write, draw]
      refine .whole ?_ ?_
      · simp [covers, hstock]
      · simp [Canvas.output_emit, rawText, hstock]
    | children =>
      rw [if_pos (by simp [descends, hstock])]
      exact .cons_of_ne hstock (by decide) hlower
    | nothing =>
      rw [if_neg (by simp [descends, hstock])]
      simp only [Stock.function, Drawing.nothing, draw]
      refine .cons_of_ne hstock (by decide) (.whole (List.forall_mem_nil _) ?_)
      rw [rawText_nil, String.append_empty]

/-- **Rendering nodes that the root reaches** draws the nodes on the way, if there may be as many
calls inside each other as there are nodes. -/
theorem exists_visits {f : Forest NodeId} (mirrors : f.Each document.Mirrors)
    (hfunctions : ∀ role, function? functions role = (stock? entries role).map Stock.function) :
    ∃ visited, document.Visits (descends entries) f.roots visited ∧
      ∀ n, f.size ≤ n → ∀ siblings index canvas, Drawn entries canvas visited
        (draw document (renderNode document functions n)
          (Drawing.forEach (f.roots.zipIdx index) fun (child, index) =>
            Drawing.call child siblings index) canvas) := by
  induction f with
  | nil =>
    refine ⟨[], .nil, fun n _ siblings index canvas => .whole (List.forall_mem_nil _) ?_⟩
    rw [rawText_nil, String.append_empty]
  | cons id below rest ihbelow ihrest =>
    obtain ⟨hid, hbelow, hrest⟩ := mirrors
    obtain ⟨lower, hlower, hdrawLower⟩ := ihbelow hbelow
    obtain ⟨later, hlater, hdrawLater⟩ := ihrest hrest
    obtain ⟨children, hchildren, hroots⟩ := Option.map_eq_some_iff.1 hid
    obtain ⟨node, hnode, rfl⟩ := Option.map_eq_some_iff.1 hchildren
    have hdown : document.Visits (descends entries)
        (if descends entries node.role then node.children.toList else [])
        (if descends entries node.role then lower else []) := by
      split
      · rw [hroots]
        exact hlower
      · exact .nil
    refine ⟨_, .cons hnode hdown hlater, fun n hn siblings index canvas => ?_⟩
    rw [Forest.size] at hn
    obtain ⟨n, rfl⟩ : ∃ m, n = m + 1 := ⟨n - 1, by omega⟩
    rw [← List.cons_append, Forest.roots, List.zipIdx_cons, Drawing.forEach]
    refine Drawn.bind ?_ fun after => hdrawLater _ (by omega) siblings (index + 1) after
    rw [draw_call]
    refine drawn_renderNode hfunctions hnode ?_ siblings index
    have hdrawn := hdrawLower n (by omega) node.children 0 canvas
    rw [← hroots] at hdrawn
    exact hdrawn

/-- **The children of the root** are where the walk starts. -/
theorem exists_visits_topLevel (grown : document.Grown)
    (hfunctions : ∀ role, function? functions role = (stock? entries role).map Stock.function) :
    ∃ visited, document.Visits (descends entries) document.topLevel.toList visited ∧
      Drawn entries {} visited (renderCanvas document functions) := by
  obtain ⟨-, tree, rooted⟩ := grown
  obtain ⟨below, rfl⟩ := rooted.exists_below
  obtain ⟨visited, hvisits, hdrawn⟩ := exists_visits rooted.mirrors.2.1 hfunctions
  obtain ⟨children, hchildren, hroots⟩ := Option.map_eq_some_iff.1 rooted.mirrors.1
  obtain ⟨root, hroot, rfl⟩ := Option.map_eq_some_iff.1 hchildren
  have hsize := rooted.size_below_le
  have hdepth : below.size ≤ walkDepth document := by
    rw [walkDepth]
    omega
  refine ⟨visited, rooted.toList_topLevel ▸ hvisits, ?_⟩
  have hcanvas : renderCanvas document functions =
      draw document (renderNode document functions (walkDepth document))
        (Drawing.children root) {} := by
    simp only [renderCanvas, Drawing.node, Drawing.bind, draw, hroot, Drawing.ofOption]
  have hstart := hdrawn _ hdepth root.children 0 {}
  rw [← hroots] at hstart
  rw [hcanvas]
  exact hstart

/-- A list has one first entry without a property. -/
theorem eq_of_first {α : Type} {p : α → Bool} {earlier before later after : List α} {entry other : α}
    (h : earlier ++ entry :: later = before ++ other :: after)
    (all : ∀ one ∈ earlier, p one = true) (missing : p entry = false)
    (all' : ∀ one ∈ before, p one = true) (missing' : p other = false) :
    earlier = before ∧ entry = other := by
  have htake := congrArg (List.takeWhile p) h
  rw [List.takeWhile_append_of_pos all, List.takeWhile_append_of_pos all',
    List.takeWhile_cons_of_neg (by simp [missing]), List.takeWhile_cons_of_neg (by simp [missing']),
    List.append_nil, List.append_nil] at htake
  subst htake
  exact ⟨rfl, (List.cons.inj (List.append_cancel_left h)).1⟩

/-- **What a renderer with stock drawings makes of a document.** It comes to the children of the
root, and to the children of the nodes that are registered for having them rendered. If all nodes on
this way are registered, the result has the texts of those that are registered for being emitted, in
order. Otherwise the error is that of the first node that is not registered, and what was written are
the texts of the nodes before it. -/
theorem render_visits {document : Document K} (made : document.Made)
    (entries : List (Role K × Stock)) (options : RenderOptions) (before : List (Document K)) :
    let outcome := ((ofStock entries options).renderAll before).render document
    (∃ visited, document.Visits (descends entries) document.topLevel.toList visited) ∧
    ∀ visited, document.Visits (descends entries) document.topLevel.toList visited →
      ((∃ rendered, outcome.1 = .ok rendered) ↔ ∀ node ∈ visited, covers entries node = true) ∧
      (∀ rendered, outcome.1 = .ok rendered → rendered.output = rawText entries visited) ∧
      ∀ earlier node later, visited = earlier ++ node :: later →
        (∀ other ∈ earlier, covers entries other = true) → covers entries node = false →
        outcome.1 = .error (.failed (.unregistered node.role node.raw)) ∧
          outcome.2.partialOutput = rawText entries earlier := by
  intro outcome
  obtain ⟨hsetup, -⟩ := setup_renderAll (ofStock entries options) before
  have hfunctions (role : Role K) :
      function? ((ofStock entries options).renderAll before).functions role =
        (stock? entries role).map Stock.function := by
    rw [hsetup, function?_ofStock]
  obtain ⟨way, hway, hdrawn⟩ := exists_visits_topLevel made.grown hfunctions
  refine ⟨⟨way, hway⟩, fun visited hvisited => ?_⟩
  obtain rfl := hway.unique hvisited
  simp only [outcome, render]
  generalize renderCanvas document _ = drawn at hdrawn
  cases hdrawn with
  | whole all output =>
    refine ⟨⟨fun _ => all, fun _ => ⟨_, rfl⟩⟩, ?_, ?_⟩
    · rintro rendered ⟨⟩
      exact output
    · rintro earlier node later rfl - missing
      rw [all node (by simp)] at missing
      cases missing
  | part all missing output =>
    refine ⟨⟨?_, fun hall => ?_⟩, ?_, ?_⟩
    · rintro ⟨rendered, ⟨⟩⟩
    · rw [hall _ (by simp)] at missing
      cases missing
    · rintro rendered ⟨⟩
    · intro earlier other later hsplit hall hmissing
      obtain ⟨rfl, rfl⟩ := eq_of_first hsplit all missing hall hmissing
      exact ⟨rfl, output⟩

/-- A group with two tokens, of which the second one is not registered, and a token after it. The
error comes from inside of the group, and what was written is the token before it. -/
theorem render_visits_group :
    let node (role : Role Nat) (raw : String) (parent : NodeId) (children : Array NodeId) :
        Node Nat := ⟨role, raw, none, none, .point .start "", some parent, children, none⟩
    let visited := [node (.group 1) "" 0 #[2, 3], node (.token 2) "a" 1 #[],
      node (.token 3) "b" 1 #[], node (.token 2) "c" 0 #[]]
    let entries : List (Role Nat × Stock) :=
      [(.token 2, .nothing), (.group 1, .children), (.token 2, .raw)]
    ∃ document : Document Nat, document.Made ∧
      document.Visits (descends entries) document.topLevel.toList visited ∧
      ((ofStock entries {}).render document).1 = .error (.failed (.unregistered (.token 3) "b")) ∧
      ((ofStock entries {}).render document).2.partialOutput = "a" := by
  intro node visited entries
  let root : Node Nat := ⟨.root, "", none, none, .point .start "", none, #[1, 4], none⟩
  let document : Document Nat := ⟨⟨(root :: visited).toArray⟩, "", "", #[]⟩
  have hdocument : (Document.empty "").appendAll? [(0, node (.group 1) "" 0 #[]),
      (1, node (.token 2) "a" 0 #[]), (1, node (.token 3) "b" 0 #[]),
      (0, node (.token 2) "c" 0 #[])] = some document := by decide +kernel
  have made : document.Made := (Document.Made.empty "").appendAll? hdocument
  have leaf {id : NodeId} {ids : List NodeId} {node : Node Nat} {rest : List (Node Nat)}
      (found : document.node? id = some node) (hleaf : descends entries node.role = false)
      (along : document.Visits (descends entries) ids rest) :
      document.Visits (descends entries) (id :: ids) (node :: rest) := by
    have down : document.Visits (descends entries)
        (if descends entries node.role then node.children.toList else []) [] := by
      rw [hleaf]
      exact .nil
    have hvisits := Document.Visits.cons found down along
    exact hvisits
  have hinside : document.Visits (descends entries) [2, 3]
      [node (.token 2) "a" 1 #[], node (.token 3) "b" 1 #[]] :=
    leaf rfl (by decide) (leaf rfl (by decide) .nil)
  have hlast : document.Visits (descends entries) [4] [node (.token 2) "c" 0 #[]] :=
    leaf rfl (by decide) .nil
  have hgroup : document.node? 1 = some (node (.group 1) "" 0 #[2, 3]) := rfl
  have hvisits : document.Visits (descends entries) document.topLevel.toList visited := by
    have hall := Document.Visits.cons hgroup hinside hlast
    exact hall
  obtain ⟨-, hrender⟩ := render_visits made entries {} []
  obtain ⟨-, -, hfirst⟩ := hrender visited hvisits
  obtain ⟨herror, hpartial⟩ := hfirst [node (.group 1) "" 0 #[2, 3], node (.token 2) "a" 1 #[]]
    (node (.token 3) "b" 1 #[]) [node (.token 2) "c" 0 #[]] rfl (by decide +kernel) (by decide +kernel)
  exact ⟨document, made, hvisits, herror, hpartial⟩

end Renderer

end GlobTree
