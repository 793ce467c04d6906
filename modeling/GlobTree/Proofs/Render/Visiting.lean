import GlobTree.Proofs.Render.Draw
import GlobTree.Proofs.Tree.Traversal
/-!
# The nodes that a renderer comes to

`Renderer.visits` lists the nodes that are rendered in the run of a drawing, in the order in which
they are called for, whatever the drawings are. A renderer that renders the children of all nodes
that have children, and no nodes for those without (`Renderer.WalksDown`), comes to all nodes below
the root in preorder, unless a node without children fails, which ends the walk there (`Walked`).

So it goes the way of the iterator and of the JSON form (`Document.Traversed`), and this is so of
every document (`Document.Made.exists_traversed`).
-/

namespace GlobTree

variable {K α β : Type}

/-- The drawing renders no nodes. -/
def Drawing.Alone : Drawing K α → Prop
  | .pure _ | .fail _ | .outOfBounds => True
  | .emit _ _ next => next.Alone
  | .render .. => False
  | .look next => ∀ document canvas, (next document canvas).Alone

namespace Renderer

/-! ## The nodes that are rendered -/

/-- The nodes that are rendered in the run of a drawing, in order, where `call` renders the nodes
that are called for and `called` gives the nodes that are rendered by this. -/
def visits (document : Document K)
    (call : NodeId → Array NodeId → Nat → Canvas → Except (RenderStop K) Unit × Canvas)
    (called : NodeId → Array NodeId → Nat → Canvas → List NodeId) :
    Drawing K α → Canvas → List NodeId
  | .pure _, _ => []
  | .fail _, _ => []
  | .outOfBounds, _ => []
  | .emit text origin next, canvas => visits document call called next (canvas.emit text origin)
  | .render id siblings index next, canvas =>
    called id siblings index canvas ++
      match call id siblings index canvas with
      | (.ok (), canvas) => visits document call called (next (.ok ())) canvas
      | (.error (.failed error), canvas) => visits document call called (next (.error error)) canvas
      | (.error _, _) => []
  | .look next, canvas => visits document call called (next document canvas) canvas

section Drawings

variable (document : Document K)
  (call : NodeId → Array NodeId → Nat → Canvas → Except (RenderStop K) Unit × Canvas)
  (called : NodeId → Array NodeId → Nat → Canvas → List NodeId)

/-- One drawing after the other, unless the first one fails. -/
theorem visits_bind (first : Drawing K α) (next : α → Drawing K β) (canvas : Canvas) :
    visits document call called (first.bind next) canvas =
      visits document call called first canvas ++
        match draw document call first canvas with
        | (.ok value, canvas) => visits document call called (next value) canvas
        | (.error _, _) => [] := by
  induction first generalizing canvas with
  | pure value => rfl
  | fail error => rfl
  | outOfBounds => rfl
  | emit text origin first ih => exact ih _
  | render id siblings index first ih =>
    simp only [Drawing.bind, visits, draw, List.append_assoc]
    generalize call id siblings index canvas = outcome
    obtain ⟨result, after⟩ := outcome
    cases result with
    | ok value => exact congrArg (called id siblings index canvas ++ ·) (ih _ after)
    | error stop =>
      cases stop with
      | failed error => exact congrArg (called id siblings index canvas ++ ·) (ih _ after)
      | outOfBounds => rfl
      | tooDeep => rfl
  | look first ih => exact ih _ _ _

/-- Calling for a node is rendering it. -/
theorem visits_call (id : NodeId) (siblings : Array NodeId) (index : Nat) (canvas : Canvas) :
    visits document call called (Drawing.call id siblings index) canvas =
      called id siblings index canvas := by
  rw [Drawing.call, visits]
  generalize call id siblings index canvas = result
  obtain ⟨outcome, after⟩ := result
  cases outcome with
  | ok value => exact List.append_nil _
  | error stop => cases stop <;> exact List.append_nil _

/-- A drawing that renders no nodes cannot go too deep. -/
theorem visits_of_alone {drawing : Drawing K α} (alone : drawing.Alone) (canvas : Canvas) :
    visits document call called drawing canvas = [] ∧
      (draw document call drawing canvas).1 ≠ .error .tooDeep := by
  induction drawing generalizing canvas with
  | pure value => exact ⟨rfl, nofun⟩
  | fail error => exact ⟨rfl, nofun⟩
  | outOfBounds => exact ⟨rfl, nofun⟩
  | emit text origin next ih => exact ih alone _
  | render => exact alone.elim
  | look next ih => exact ih _ _ (alone _ _) _

end Drawings

variable [DecidableEq K]

/-- The nodes that are rendered by rendering a node, which is the first of them, with at most the
given number of calls for nodes inside each other. -/
def nodeVisits (document : Document K) (functions : List (Role K × DrawFunction K)) :
    Nat → NodeId → Array NodeId → Nat → Canvas → List NodeId
  | 0, _, _, _, _ => []
  | n + 1, id, siblings, index, canvas =>
    id :: match document.node? id with
      | none => []
      | some node =>
        match function? functions node.role with
        | none => []
        | some function =>
          visits document (renderNode document functions n) (nodeVisits document functions n)
            (function node siblings index) canvas

/-- The nodes that are rendered in a rendering, in order. -/
def visited (renderer : Renderer K) (document : Document K) : List NodeId :=
  let root : Drawing K Unit := (Drawing.node rootId).bind Drawing.children
  visits document (renderNode document renderer.functions (walkDepth document))
    (nodeVisits document renderer.functions (walkDepth document)) root {}

/-! ## Walks -/

/-- What is registered for a node renders its children, if it has children. Otherwise it renders no
nodes, if there is anything registered at all. -/
def WalksAt (document : Document K) (functions : List (Role K × DrawFunction K)) (id : NodeId) :
    Prop :=
  ∀ node, document.node? id = some node →
    if node.children = #[] then
      ∀ function, function? functions node.role = some function →
        ∀ siblings index, (function node siblings index).Alone
    else function? functions node.role = some fun node _ _ => Drawing.children node

/-- The renderer renders the children of all nodes of the document that have children, and no nodes
for those that have none. -/
def WalksDown (renderer : Renderer K) (document : Document K) : Prop :=
  ∀ id ∈ document.order, WalksAt document renderer.functions id

end Renderer

/-- What comes of a walk through nodes. Either it comes to all of them and has a result, or it comes
to a node without children that fails, and ends there. It is not given up for going too deep. -/
inductive Walked (document : Document K) :
    (ids visited : List NodeId) → Except (RenderStop K) α → Prop
  | whole {ids : List NodeId} {value : α} : Walked document ids ids (.ok value)
  | part {earlier later : List NodeId} {id : NodeId} {stop : RenderStop K}
      (leaf : document.children? id = some #[]) (shallow : stop ≠ .tooDeep) :
      Walked document (earlier ++ id :: later) (earlier ++ [id]) (.error stop)

namespace Walked

variable {document : Document K} {ids visited first second : List NodeId} {id : NodeId}

theorem map {outcome : Except (RenderStop K) α} (h : Walked document ids visited outcome)
    (f : α → β) : Walked document ids visited (outcome.map f) := by
  cases h with
  | whole => exact .whole
  | part leaf shallow => exact .part leaf shallow

/-- A node comes before those that the walk comes to below it. -/
theorem cons {outcome : Except (RenderStop K) α} (h : Walked document ids visited outcome) :
    Walked document (id :: ids) (id :: visited) outcome := by
  cases h with
  | whole => exact .whole
  | part leaf shallow =>
    rw [← List.cons_append, ← List.cons_append]
    exact .part leaf shallow

/-- A node without children. -/
theorem leaf {outcome : Except (RenderStop K) α} (hleaf : document.children? id = some #[])
    (shallow : outcome ≠ .error .tooDeep) : Walked document [id] [id] outcome := by
  cases outcome with
  | ok value => exact .whole
  | error stop =>
    show Walked document ([] ++ [id]) ([] ++ [id]) (.error stop)
    exact .part hleaf fun heq => shallow (congrArg Except.error heq)

variable {call : NodeId → Array NodeId → Nat → Canvas → Except (RenderStop K) Unit × Canvas}
  {called : NodeId → Array NodeId → Nat → Canvas → List NodeId}

open Renderer

/-- **One part of the walk after the other.** An error in the first part ends the walk. -/
theorem bind {drawing next : Drawing K Unit} {canvas : Canvas}
    (hfirst : Walked document first (visits document call called drawing canvas)
      (draw document call drawing canvas).1)
    (hsecond : ∀ after, Walked document second (visits document call called next after)
      (draw document call next after).1) :
    Walked document (first ++ second)
      (visits document call called (drawing.bind fun _ => next) canvas)
      (draw document call (drawing.bind fun _ => next) canvas).1 := by
  rw [visits_bind, draw_bind]
  generalize draw document call drawing canvas = outcome at hfirst ⊢
  generalize visits document call called drawing canvas = way at hfirst ⊢
  obtain ⟨result, after⟩ := outcome
  cases result with
  | error stop =>
    dsimp only at hfirst ⊢
    rw [List.append_nil]
    cases hfirst with
    | part leaf shallow =>
      rw [List.append_assoc, List.cons_append]
      exact .part leaf shallow
  | ok value =>
    obtain rfl : first = way := by cases hfirst; rfl
    have hnext := hsecond after
    dsimp only
    generalize visits document call called next after = later at hnext ⊢
    generalize (draw document call next after).1 = last at hnext ⊢
    cases hnext with
    | whole => exact .whole
    | part leaf shallow =>
      rw [← List.append_assoc, ← List.append_assoc]
      exact .part leaf shallow

end Walked

namespace Renderer

variable [DecidableEq K] {document : Document K} {functions : List (Role K × DrawFunction K)}

/-- **Rendering a node** is to come to it, and then to the nodes below it. -/
theorem walked_renderNode {n : Nat} {id : NodeId} {node : Node K} {below : List NodeId}
    (walks : WalksAt document functions id) (hnode : document.node? id = some node)
    (hleaf : node.children = #[] → below = [])
    (hbelow : ∀ canvas, Walked document below
      (visits document (renderNode document functions n) (nodeVisits document functions n)
        (Drawing.children node) canvas)
      (draw document (renderNode document functions n) (Drawing.children node) canvas).1)
    (siblings : Array NodeId) (index : Nat) (canvas : Canvas) :
    Walked document (id :: below) (nodeVisits document functions (n + 1) id siblings index canvas)
      (renderNode document functions (n + 1) id siblings index canvas).1 := by
  have hwalks := walks node hnode
  rw [nodeVisits, renderNode, hnode]
  dsimp only
  split at hwalks
  next hchildren =>
    have hempty : document.children? id = some #[] := by
      rw [Arena.children?, hnode, ← hchildren]
      rfl
    rw [hleaf hchildren]
    cases hfunction : function? functions node.role with
    | none => exact .leaf hempty fun h => by cases h
    | some function =>
      obtain ⟨hvisits, hshallow⟩ := visits_of_alone document (renderNode document functions n)
        (nodeVisits document functions n) (hwalks function hfunction siblings index) canvas
      dsimp only
      rw [hvisits]
      exact .leaf hempty hshallow
  next =>
    rw [hwalks]
    exact (hbelow canvas).cons

/-- **Rendering nodes that the root reaches** comes to them and all below them in preorder, if there
may be as many calls inside each other as there are nodes. -/
theorem walked_roots {f : Forest NodeId} (mirrors : f.Each document.Mirrors)
    (walks : ∀ id ∈ f.preorder, WalksAt document functions id) {n : Nat} (hn : f.size ≤ n)
    (siblings : Array NodeId) (index : Nat) (canvas : Canvas) :
    let drawing : Drawing K Unit := Drawing.forEach (f.roots.zipIdx index) fun (child, index) =>
      Drawing.call child siblings index
    Walked document f.preorder
      (visits document (renderNode document functions n) (nodeVisits document functions n) drawing
        canvas)
      (draw document (renderNode document functions n) drawing canvas).1 := by
  induction f generalizing n siblings index canvas with
  | nil => exact .whole
  | cons id below rest ihbelow ihrest =>
    obtain ⟨hid, hbelow, hrest⟩ := mirrors
    obtain ⟨hwalks, hwalksBelow, hwalksRest⟩ := Forest.forall_mem_preorder_cons.1 walks
    obtain ⟨children, hchildren, hroots⟩ := Option.map_eq_some_iff.1 hid
    obtain ⟨node, hnode, rfl⟩ := Option.map_eq_some_iff.1 hchildren
    rw [Forest.size] at hn
    obtain ⟨n, rfl⟩ : ∃ m, n = m + 1 := ⟨n - 1, by omega⟩
    intro drawing
    show Walked document ((id :: below.preorder) ++ rest.preorder) _ _
    refine Walked.bind ?_ fun after =>
      ihrest hrest hwalksRest (by omega) siblings (index + 1) after
    rw [visits_call, draw_call]
    refine walked_renderNode hwalks hnode (fun hleaf => ?_) (fun canvas => ?_) siblings index canvas
    · cases below with
      | nil => rfl
      | cons => simp [hleaf, Forest.roots] at hroots
    · have hwalked := ihbelow hbelow hwalksBelow (n := n) (by omega) node.children 0 canvas
      rw [← hroots] at hwalked
      exact hwalked

/-- **A rendering comes to the nodes below the root in preorder.** -/
theorem walked_render {below : Forest NodeId} {renderer : Renderer K}
    (rooted : document.Rooted (.cons rootId below .nil))
    (walks : ∀ id ∈ below.preorder, WalksAt document renderer.functions id) :
    Walked document below.preorder (renderer.visited document) (renderer.render document).1 := by
  obtain ⟨hroot, hbelow, -⟩ := rooted.mirrors
  obtain ⟨children, hchildren, hroots⟩ := Option.map_eq_some_iff.1 hroot
  obtain ⟨root, hnode, rfl⟩ := Option.map_eq_some_iff.1 hchildren
  have hsize := rooted.size_below_le
  have hdepth : below.size ≤ walkDepth document := by
    rw [walkDepth]
    omega
  have hwalked := walked_roots hbelow walks hdepth root.children 0 {}
  rw [← hroots] at hwalked
  have hvisited : renderer.visited document =
      visits document (renderNode document renderer.functions (walkDepth document))
        (nodeVisits document renderer.functions (walkDepth document)) (Drawing.children root) {} := by
    simp only [visited, Drawing.node, Drawing.bind, visits, hnode, Drawing.ofOption]
  have hcanvas : renderCanvas document renderer.functions =
      draw document (renderNode document renderer.functions (walkDepth document))
        (Drawing.children root) {} := by
    simp only [renderCanvas, Drawing.node, Drawing.bind, draw, hnode, Drawing.ofOption]
  rw [hvisited, render, hcanvas]
  exact hwalked.map _

end Renderer

/-! ## All ways agree -/

variable [DecidableEq K] [ToString K]

/-- All ways through a document follow one tree of numbers. -/
structure Document.Traversed (document : Document K) (tree : Forest NodeId) : Prop where
  /-- The tree has the children of the root as its first nodes. -/
  roots : document.topLevel.toList = tree.roots
  /-- Below every node it has the children of the node. -/
  mirrors : tree.Each document.Mirrors
  /-- No number comes twice. -/
  nodup : tree.preorder.Nodup
  /-- The iterator comes to an end, and it yields the preorder. -/
  iterated (ids : List NodeId) :
    document.Iterates document.topLevel.toList ids ↔ ids = tree.preorder
  /-- So the number of steps that it is given is enough. -/
  order : document.order = tree.preorder
  /-- The JSON form is that of the tree. -/
  written : document.toArena.toJson = .list (tree.fold document.nodeJson)
  /-- The depth of a node is its level in the tree. -/
  depths : tree.preorder.map (fun id => (id, document.depth? id)) =
    (tree.levels 1).map fun (id, level) => (id, some level)
  /-- A node stands among its siblings where its index says. -/
  places : ∀ id ∈ tree.preorder, ∃ siblings index, document.siblings? id = some siblings ∧
    document.indexInParent? id = some (some index) ∧ siblings[index]? = some id
  /-- Renderers that render the children of all nodes come to the nodes in preorder. -/
  rendered (renderer : Renderer K) : renderer.WalksDown document →
    Walked document tree.preorder (renderer.visited document) (renderer.render document).1

/-- **All ways through a document agree**, however it is made. -/
theorem Document.Made.exists_traversed {document : Document K} (made : document.Made) :
    ∃ tree, document.Traversed tree := by
  obtain ⟨consistent, tree, rooted⟩ := made.grown
  obtain ⟨below, rfl⟩ := rooted.exists_below
  have htop := rooted.toList_topLevel
  have horder : document.order = below.preorder := by
    have h := rooted.order_eq
    rw [Forest.preorder, Forest.preorder, List.append_nil] at h
    exact (List.cons.inj h).2.symm
  obtain ⟨-, hmirrors, -⟩ := rooted.mirrors
  have hiterates : document.Iterates document.topLevel.toList below.preorder := by
    have h := Arena.iterates_roots hmirrors .done
    rwa [List.append_nil, List.append_nil, ← htop] at h
  obtain ⟨hnodup, hmem⟩ := rooted.nodup_order consistent
  rw [horder] at hnodup hmem
  have hin (id : NodeId) (hid : id ∈ below.preorder) :
      id ∈ (Forest.cons rootId below .nil).preorder :=
    List.mem_cons_of_mem _ (List.mem_append_left _ hid)
  have hdepths := rooted.depth?_of_mem_levels consistent
  refine ⟨below, htop, hmirrors, hnodup, fun ids => ⟨fun h => hiterates.unique h, ?_⟩, horder, ?_, ?_,
    fun id hid => ?_, fun renderer walks => Renderer.walked_render rooted (horder ▸ walks)⟩
  · rintro rfl
    exact hiterates
  · rw [Arena.toJson, htop, Arena.map_nodeToJson hmirrors rooted.size_below_le]
  · rw [← below.map_fst_levels 1, List.map_map]
    refine List.map_congr_left fun entry hentry => ?_
    rw [Function.comp_apply, hdepths entry hentry]
  · exact consistent.exists_siblings (rooted.lt_size (hin id hid)) ((hmem id).1 hid).1

/-- Nodes that are added in another order than that of the document, and one that is its own parent
and is not reached. The renderer comes to the others in the order of the document. -/
theorem Document.exists_traversed_interleaved :
    let node (role : Role Nat) (raw : String) (parent : NodeId) (children : Array NodeId) :
        Node Nat := ⟨role, raw, none, none, .point .start "", some parent, children, none⟩
    let renderer : Renderer Nat := ((Renderer.new {}).register (.group 1) fun node _ _ =>
      .children node).register (.token 2) fun node _ _ => .raw node
    ∃ document : Document Nat,
      (Document.empty "").appendAll? [(0, node (.group 1) "" 0 #[]), (0, node (.token 2) "c" 0 #[]),
        (1, node (.token 2) "a" 0 #[]), (1, node (.token 2) "b" 0 #[]),
        (5, node (.token 2) "d" 0 #[])] = some document ∧
      ∃ tree, document.Traversed tree ∧ tree.preorder = [1, 3, 4, 2] ∧
        renderer.WalksDown document ∧ renderer.visited document = [1, 3, 4, 2] := by
  intro node renderer
  let root : Node Nat := ⟨.root, "", none, none, .point .start "", none, #[1, 2], none⟩
  let document : Document Nat := ⟨⟨#[root, node (.group 1) "" 0 #[3, 4], node (.token 2) "c" 0 #[],
    node (.token 2) "a" 1 #[], node (.token 2) "b" 1 #[], node (.token 2) "d" 5 #[5]]⟩, "", "", #[]⟩
  have hdocument : (Document.empty "").appendAll? [(0, node (.group 1) "" 0 #[]),
      (0, node (.token 2) "c" 0 #[]), (1, node (.token 2) "a" 0 #[]), (1, node (.token 2) "b" 0 #[]),
      (5, node (.token 2) "d" 0 #[])] = some document := by decide +kernel
  have horder : document.order = [1, 3, 4, 2] := by decide +kernel
  obtain ⟨tree, traversed⟩ := ((Document.Made.empty "").appendAll? hdocument).exists_traversed
  refine ⟨document, hdocument, tree, traversed, traversed.order.symm.trans horder, ?_, by decide +kernel⟩
  have leaf {id : NodeId} {token : Node Nat} (htoken : document.node? id = some token)
      (hrole : token.role = .token 2) (hchildren : token.children = #[]) :
      Renderer.WalksAt document renderer.functions id := by
    intro other hother
    obtain rfl := Option.some.inj (htoken.symm.trans hother)
    rw [if_pos hchildren, hrole]
    rintro function ⟨⟩ siblings index
    trivial
  rw [Renderer.WalksDown, horder]
  refine List.forall_mem_cons.2 ⟨?_, List.forall_mem_cons.2 ⟨leaf rfl rfl rfl,
    List.forall_mem_cons.2 ⟨leaf rfl rfl rfl, List.forall_mem_cons.2 ⟨leaf rfl rfl rfl,
      List.forall_mem_nil _⟩⟩⟩⟩
  rintro group ⟨⟩
  rfl

end GlobTree
