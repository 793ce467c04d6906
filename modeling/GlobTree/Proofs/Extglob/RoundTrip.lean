import GlobTree.Proofs.Extglob.Documents
import GlobTree.Proofs.Render.Draw
import GlobTree.Proofs.Render.SourceMap
/-!
# Writing a pattern as it was

The renderer for the text that was parsed goes through the whole document and emits the text of
every entry (`draw_forest`). The entries tile the text, so that each fragment stands in the output
where it stood in the source (`Exact`), and all of them make up the source.
-/

namespace GlobTree.Extglob

open Renderer

/-! ## Fragments where they were -/

/-- A canvas has a text on it, every fragment of which stands at the place where it stood in
`source`. -/
structure Exact (canvas : Canvas) (source text : List Char) : Prop where
  location : canvas.location = Location.start.advance text
  output : canvas.output = String.ofList text
  fragments : ∀ fragment ∈ canvas.fragments, fragment.generated = fragment.origin.start ∧
    (sliceBytes? fragment.origin.start.offset fragment.origin.stop.offset source).map
      String.ofList = some fragment.text

/-- Emits the texts of entries. -/
def emitAll (entries : List (Entry Kind)) (canvas : Canvas) : Canvas :=
  entries.foldl (fun canvas entry => canvas.emit entry.raw entry.span) canvas

theorem exact_empty (source : List Char) : Exact {} source [] where
  location := (Location.advance_nil .start).symm
  output := rfl
  fragments := fun _ h => absurd h (Array.not_mem_empty _)

/-- Emitting a piece of the source where it stands. -/
theorem Exact.emit {canvas : Canvas} {source before raw rest : List Char}
    (h : Exact canvas source before) (hsource : source = before ++ (raw ++ rest)) (hraw : raw ≠ [])
    (label : String) :
    Exact (canvas.emit (String.ofList raw)
      (.covering (Location.start.advance before) raw label)) source (before ++ raw) := by
  have hempty : (String.ofList raw).isEmpty = false := by
    rw [String.isEmpty_eq_false_iff]
    intro hnil
    exact hraw (String.ofList_eq_empty_iff.1 hnil)
  have hslice : sliceBytes? (byteLength before) (byteLength before + byteLength raw) source =
      some raw := by
    rw [hsource]
    exact sliceBytes?_append before raw rest
  rw [Canvas.emit, hempty]
  refine ⟨?_, ?_, fun fragment hfragment => ?_⟩
  · show canvas.location.advance (String.ofList raw).toList = _
    rw [String.toList_ofList, h.location, Location.advance_append]
  · have houtput := h.output
    rw [Canvas.output] at houtput
    simp only [Bool.false_eq_true, if_false, Canvas.output, Array.toList_push, List.map_append,
      List.map_cons, List.map_nil, String.join_append, houtput, String.ofList_append]
    rfl
  · rcases Array.mem_push.1 hfragment with hold | rfl
    · exact h.fragments fragment hold
    · refine ⟨h.location, ?_⟩
      simp only [Span.covering, Location.advance_offset, Location.start_offset, Nat.zero_add]
      rw [hslice]
      rfl

/-- **Entries that tile the source are emitted where they stand.** -/
theorem Exact.emitAll {canvas : Canvas} {source before text rest : List Char}
    {entries : List (Entry Kind)} {label : String} (h : Exact canvas source before)
    (tiles : Tiles label (Location.start.advance before) entries text)
    (hsource : source = before ++ (text ++ rest)) :
    Exact (emitAll entries canvas) source (before ++ text) := by
  induction entries generalizing canvas before text with
  | nil =>
    obtain rfl : text = [] := tiles
    rwa [List.append_nil]
  | cons entry entries ih =>
    rw [Tiles] at tiles
    rw [Extglob.emitAll, List.foldl_cons]
    split at tiles
    next =>
      obtain ⟨hraw, -, tiles⟩ := tiles
      have hemit : canvas.emit entry.raw entry.span = canvas := by
        rw [hraw]
        rfl
      rw [hemit]
      exact ih h tiles hsource
    next =>
      obtain ⟨raw, tail, rfl, hne, hraw, hspan, tiles⟩ := tiles
      rw [← Location.advance_append] at tiles
      rw [hraw, hspan, ← List.append_assoc before]
      have hsplit : source = before ++ (raw ++ (tail ++ rest)) := by
        rw [hsource, List.append_assoc]
      exact ih (h.emit hsplit hne label) tiles (by rw [hsplit]; simp only [List.append_assoc])

/-! ## Going through the document -/

section Drawing

variable (options : RenderOptions)

/-- The roles that nodes can have. -/
def Known : Role Kind → Prop
  | .root => False
  | .eos => True
  | .token kind => kind ∈ Kind.tokens
  | .group kind | .opening kind | .closing kind => kind ∈ Kind.groups

omit options in
theorem Fits.known {above : Option (Entry Kind)} {entry : Entry Kind} (fits : Fits above entry) :
    Known entry.role := by
  obtain ⟨shaped, -⟩ := fits
  cases hrole : entry.role with
  | group kind => exact shaped.mem_groups hrole
  | eos => trivial
  | root | opening kind | closing kind =>
    rw [Shaped, hrole] at shaped
    exact shaped
  | token kind =>
    rw [Shaped, hrole] at shaped
    cases kind with
    | escape | quoted => simp [Known, Kind.tokens]
    | _ => exact shaped

/-- What is drawn for a node: nothing for the end, its children for a group, its text for anything
else. -/
def drawVerbatim : Role Kind → DrawFunction Kind
  | .eos => fun _ _ _ => .nothing
  | .group _ => fun node _ _ => .children node
  | _ => fun node _ _ => .raw node

theorem function?_verbatim {role : Role Kind} (known : Known role) :
    function? (verbatimRenderer options).functions role = some (drawVerbatim role) := by
  simp only [verbatimRenderer, Kind.tokens, Kind.groups, List.foldl_cons, List.foldl_nil,
    function?_register]
  cases role with
  | root => cases known
  | eos => simp [drawVerbatim]
  | token kind => cases kind <;> simp [Known, Kind.tokens, drawVerbatim] at known ⊢
  | group kind => cases kind <;> simp [Known, Kind.groups, drawVerbatim] at known ⊢
  | opening kind => cases kind <;> simp [Known, Kind.groups, drawVerbatim] at known ⊢
  | closing kind => cases kind <;> simp [Known, Kind.groups, drawVerbatim] at known ⊢

variable {document : Document Kind}

/-- **A node is emitted with all that is below it.** Nodes that have no text of their own emit
nothing, and only groups have something below them. -/
theorem renderNode_verbatim {node : Node Kind} {id n : Nat} {below : Forest (Entry Kind)}
    (hnode : document.node? id = some node) (known : Known node.role)
    (quiet : node.role.isStructural → node.raw = "")
    (placed : below.Linked Draft.Placed (some node.entry)) (siblings : Array NodeId) (index : Nat)
    (canvas : Canvas)
    (hchildren : draw document (renderNode document (verbatimRenderer options).functions n)
      (Drawing.children node) canvas = (.ok (), emitAll below.preorder canvas)) :
    renderNode document (verbatimRenderer options).functions (n + 1) id siblings index canvas =
      (.ok (), emitAll (node.entry :: below.preorder) canvas) := by
  have hfunction := function?_verbatim options known
  have hquiet (h : node.role.isStructural) : canvas.emit node.raw node.span = canvas := by
    rw [quiet h]
    rfl
  have hnil (h : ¬ Draft.IsGroup node.entry) : below = .nil := Draft.eq_nil_of_placed placed h
  have hrole : node.entry.role = node.role := rfl
  rw [renderNode, hnode]
  simp only [hfunction]
  cases hr : node.role with
  | root =>
    rw [hr] at known
    cases known
  | eos =>
    rw [hnil (by rintro ⟨kind, h⟩; rw [hrole, hr] at h; cases h)]
    exact congrArg _ (hquiet (by rw [hr]; rfl)).symm
  | group kind =>
    rw [emitAll, List.foldl_cons, Node.entry, hquiet (by rw [hr]; rfl)]
    exact hchildren
  | token kind | opening kind | closing kind =>
    rw [hnil (by rintro ⟨kind, h⟩; rw [hrole, hr] at h; cases h)]
    rfl

/-- **All entries of a forest are emitted, in the order of the document.** -/
theorem draw_forest {f : Forest (Entry Kind)} {parent id : Nat}
    {above : Option (Entry Kind)} (laid : f.LaidAt document.toArena parent id)
    (placed : f.Linked Draft.Placed above) (known : ∀ entry ∈ f.preorder, Known entry.role)
    (quiet : ∀ entry ∈ f.preorder, entry.role.isStructural → entry.raw = "")
    {n : Nat} (hn : f.size ≤ n) (siblings : Array NodeId) (index : Nat) (canvas : Canvas) :
    draw document (renderNode document (verbatimRenderer options).functions n)
        (Drawing.forEach ((f.ids id).zipIdx index) fun (child, index) =>
          Drawing.call child siblings index) canvas =
      (.ok (), emitAll f.preorder canvas) := by
  induction f generalizing parent id above n siblings index canvas with
  | nil => rfl
  | cons label below rest ihb ihr =>
    obtain ⟨⟨node, hnode, rfl, -, hchildren⟩, hbelow, hrest⟩ := laid
    obtain ⟨-, pbelow, prest⟩ := placed
    obtain ⟨knode, kbelow, krest⟩ := Forest.forall_mem_preorder_cons.1 known
    obtain ⟨qnode, qbelow, qrest⟩ := Forest.forall_mem_preorder_cons.1 quiet
    rw [Forest.size] at hn
    obtain ⟨n, rfl⟩ : ∃ m, n = m + 1 := ⟨n - 1, by omega⟩
    have hcontents := ihb hbelow pbelow kbelow qbelow (by omega : below.size ≤ n) node.children 0
      canvas
    rw [← hchildren] at hcontents
    have hfirst := renderNode_verbatim options hnode knode qnode pbelow siblings index canvas hcontents
    have hothers := ihr hrest prest krest qrest (by omega : rest.size ≤ n + 1) siblings (index + 1)
      (emitAll (node.entry :: below.preorder) canvas)
    rw [Forest.ids, List.zipIdx_cons, Drawing.forEach,
      draw_bind_of_ok _ _ ((draw_call ..).trans hfirst), hothers, emitAll, emitAll, emitAll,
      ← List.foldl_append, List.cons_append]
    rfl

/-- Rendering a document emits all its entries. -/
theorem renderCanvas_verbatim {forest : Forest (Entry Kind)} {text : List Char} {label : String}
    (parsed : Parsed document forest text label) :
    renderCanvas document (verbatimRenderer options).functions =
      (.ok (), emitAll forest.preorder {}) := by
  obtain ⟨root, hroot, -, hchildren, hlaid, hsize⟩ := parsed.root
  have hdepth : forest.size ≤ walkDepth document := by
    rw [walkDepth, hsize]
    omega
  have hknown : ∀ entry ∈ forest.preorder, Known entry.role :=
    Forest.Linked.of_mem (fun h => Fits.known h) parsed.fits
  have hforest := draw_forest options hlaid parsed.placed hknown parsed.tiles.quiet hdepth
    root.children 0 {}
  rw [← hchildren] at hforest
  have hnode : draw document (renderNode document (verbatimRenderer options).functions
      (walkDepth document)) (Drawing.node rootId) {} = (.ok root, {}) := by
    rw [Drawing.node, draw, hroot]
    rfl
  rw [renderCanvas]
  simp only [draw_bind_of_ok _ _ hnode]
  exact hforest

end Drawing

/-! ## The round trip -/

/-- **A pattern is written as it was.** Whatever chunks it came in, if all of them and the end were
accepted, rendering the document gives the chunks back, and every mapping of a source map leads to
the very place of its fragment. -/
theorem roundTrip_feedAll (parserOptions : ParserOptions) (renderOptions : RenderOptions)
    (chunks : List String) (document : Document Kind)
    (fed : ((parser parserOptions).feedAll chunks).1 = .ok ())
    (finished : ((parser parserOptions).feedAll chunks).2.finish.1 = .ok document) :
    let renderer := verbatimRenderer renderOptions
    let fragments := (renderCanvas document renderer.functions).2.fragments
    ∃ result, (renderer.render document).1 = .ok result ∧
      result.output = String.join chunks ∧ document.source = String.join chunks ∧
      (result.sourceMap.isSome ↔ renderOptions.sourceMap ≠ .disabled) ∧
      (∀ map, result.sourceMap = some map → map.mappings = fragments.map Fragment.mapping) ∧
      ∀ fragment ∈ fragments, fragment.generated = fragment.origin.start ∧
        document.slice? fragment.origin.start.offset fragment.origin.stop.offset =
          some fragment.text := by
  intro renderer fragments
  have parsed := parsed_of_feedAll fed finished
  have hcanvas := renderCanvas_verbatim renderOptions parsed
  have hstart : Tiles parserOptions.sourceLabel (Location.start.advance [])
      document.toArena.forest.preorder (chunks.flatMap String.toList) := by
    rw [Location.advance_nil]
    exact parsed.tiles
  have hexact := (exact_empty (chunks.flatMap String.toList)).emitAll hstart
    (List.append_nil _).symm
  have hjoin : String.ofList (chunks.flatMap String.toList) = String.join chunks := by
    rw [← String.toList_join, String.ofList_toList]
  refine ⟨_, by rw [render, hcanvas]; rfl, ?_, ?_, isSome_sourceMap_iff .., ?_, ?_⟩
  · rw [← hjoin]
    exact hexact.output
  · rw [← hjoin]
    exact parsed.source
  · intro map hmap
    show _ = (renderCanvas document renderer.functions).2.fragments.map _
    rw [hcanvas]
    exact mappings_rendered hmap
  · intro fragment hfragment
    have hmem : fragment ∈ (emitAll document.toArena.forest.preorder {}).fragments := by
      rw [show fragments = _ from congrArg (·.2.fragments) hcanvas] at hfragment
      exact hfragment
    rw [Document.slice?, parsed.source, String.toList_ofList]
    exact hexact.fragments fragment hmem

/-- A pattern in two chunks, with a bar outside of groups and a group that is not closed. -/
theorem roundTrip_feedAll_unclosed :
    let options := ParserOptions.lenient {}
    let chunks := ["a|(b", "c"]
    let fed := (parser options).feedAll chunks
    fed.1 = .ok () ∧ ∃ document, fed.2.finish.1 = .ok document ∧
      ∃ result, ((verbatimRenderer { sourceMap := .enabled }).render document).1 = .ok result ∧
        result.output = "a|(bc" := by
  intro options chunks fed
  have hfed : fed.1 = .ok () := by
    have hok : fed.1.isOk = true := by decide +kernel
    cases hresult : fed.1 with
    | ok value => rfl
    | error stop => simp [hresult, Except.isOk, Except.toBool] at hok
  obtain ⟨document, hfinished⟩ : ∃ document, fed.2.finish.1 = .ok document := by
    have hok : fed.2.finish.1.isOk = true := by decide +kernel
    cases hresult : fed.2.finish.1 with
    | ok document => exact ⟨document, rfl⟩
    | error stop => simp [hresult, Except.isOk, Except.toBool] at hok
  obtain ⟨result, hresult, houtput, -⟩ :=
    roundTrip_feedAll options { sourceMap := .enabled } chunks document hfed hfinished
  exact ⟨hfed, document, hfinished, result, hresult, houtput⟩

end GlobTree.Extglob
