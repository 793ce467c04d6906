import GlobTree.Proofs.Text
import GlobTree.Proofs.Render.Draw
import GlobTree.Proofs.Render.Lookup
import GlobTree.Proofs.Render.SourceMap
/-!
# What drawings emit

The canvas keeps the fragments that were written, which are not all calls of `Drawing.emit`: the
empty text leaves none. `Renderer.emissions` lists the calls themselves, along the run of a drawing
and of the nodes that it renders, whatever the drawing looks at in between.

* The canvas after a run is the one before it with these calls made (`Renderer.draw_emissions`).
* Each call with a text has one fragment, which starts where the texts before it end
  (`Canvas.fragments_emitAll`).
* So the source map locates every byte of the output (`SourceMap.Locates`): the mapping found for it
  is that of the call which wrote it.
-/

namespace GlobTree

/-- A call of `Drawing.emit`. -/
structure Emission where
  text : String
  /-- The place of the node on whose behalf the text is emitted. -/
  origin : Span
  deriving DecidableEq, Repr

namespace Emission

/-- The texts of all calls, one after the other. -/
def written (emitted : List Emission) : String := String.join (emitted.map (·.text))

/-- Where the text of a call starts, if the calls before it are the first ones. -/
def place (emitted : List Emission) (index : Nat) : Location :=
  Location.start.advance (written (emitted.take index)).toList

/-- The calls with a text. -/
def nonempty (emitted : List Emission) : List Emission := emitted.filter fun e => !e.text.isEmpty

variable {emission : Emission} {emitted : List Emission} {i j offset : Nat}

theorem written_cons (emission : Emission) (emitted : List Emission) :
    written (emission :: emitted) = emission.text ++ written emitted := String.join_cons

theorem written_append (first second : List Emission) :
    written (first ++ second) = written first ++ written second := by
  rw [written, List.map_append, String.join_append]
  rfl

theorem place_offset (emitted : List Emission) (index : Nat) :
    (place emitted index).offset = (written (emitted.take index)).utf8ByteSize := by
  rw [place, Location.advance_offset, Location.start_offset, Nat.zero_add, byteLength_toList]

/-- A text ends where the next one starts. -/
theorem place_succ_offset (h : emitted[i]? = some emission) :
    (place emitted (i + 1)).offset = (place emitted i).offset + emission.text.utf8ByteSize := by
  have htake : emitted.take (i + 1) = emitted.take i ++ [emission] := by
    rw [List.take_add_one, h]
    rfl
  rw [place_offset, place_offset, htake, written_append, String.utf8ByteSize_append, written_cons,
    String.utf8ByteSize_append]
  rfl

theorem place_offset_mono (emitted : List Emission) (h : i ≤ j) :
    (place emitted i).offset ≤ (place emitted j).offset := by
  obtain ⟨rest, hrest⟩ := List.take_prefix_take_left h (l := emitted)
  rw [place_offset, place_offset, ← hrest, written_append, String.utf8ByteSize_append]
  exact Nat.le_add_right _ _

/-- Texts that are not empty start one after the other. -/
theorem place_offset_lt (texts : ∀ e ∈ emitted, e.text ≠ "") (h : i < j)
    (inside : i < emitted.length) :
    (place emitted i).offset < (place emitted j).offset := by
  have hget : emitted[i]? = some emitted[i] := List.getElem?_eq_getElem inside
  have hsize : emitted[i].text.utf8ByteSize ≠ 0 :=
    mt String.utf8ByteSize_eq_zero_iff.1 (texts _ (List.getElem_mem inside))
  have hnext := place_succ_offset hget
  have hmono : (place emitted (i + 1)).offset ≤ (place emitted j).offset :=
    place_offset_mono emitted h
  omega

/-- **Every byte of the texts is a byte of one of them.** -/
theorem exists_place (h : offset < (written emitted).utf8ByteSize) :
    ∃ i e, emitted[i]? = some e ∧ (place emitted i).offset ≤ offset ∧
      offset < (place emitted i).offset + e.text.utf8ByteSize := by
  induction emitted generalizing offset with
  | nil => cases h
  | cons first emitted ih =>
    rw [written_cons, String.utf8ByteSize_append] at h
    -- Either the first text has the byte, or the rest has it, where it comes earlier by that text.
    by_cases hfirst : offset < first.text.utf8ByteSize
    · refine ⟨0, first, rfl, ?_, ?_⟩
      · exact Nat.zero_le _
      · exact Nat.lt_of_lt_of_le hfirst (Nat.le_add_left _ _)
    · have hrest : offset - first.text.utf8ByteSize < (written emitted).utf8ByteSize := by omega
      obtain ⟨i, e, hget, hstart, hstop⟩ := ih hrest
      have hplace : (place (first :: emitted) (i + 1)).offset =
          first.text.utf8ByteSize + (place emitted i).offset := by
        rw [place_offset, place_offset, List.take_succ_cons, written_cons,
          String.utf8ByteSize_append]
      exact ⟨i + 1, e, hget, by omega, by omega⟩

end Emission

/-! ## Calls on a canvas -/

namespace Canvas

open Emission

/-- Emits several texts. -/
def emitAll (canvas : Canvas) (emitted : List Emission) : Canvas :=
  emitted.foldl (fun canvas emission => canvas.emit emission.text emission.origin) canvas

theorem emitAll_cons (canvas : Canvas) (emission : Emission) (emitted : List Emission) :
    canvas.emitAll (emission :: emitted) =
      (canvas.emit emission.text emission.origin).emitAll emitted := rfl

theorem emitAll_append (canvas : Canvas) (first second : List Emission) :
    canvas.emitAll (first ++ second) = (canvas.emitAll first).emitAll second := List.foldl_append

/-- Calls without a text change nothing. -/
theorem emitAll_nonempty (canvas : Canvas) (emitted : List Emission) :
    canvas.emitAll (nonempty emitted) = canvas.emitAll emitted := by
  induction emitted generalizing canvas with
  | nil => rfl
  | cons emission emitted ih =>
    rw [emitAll_cons, ← ih, nonempty, List.filter_cons]
    split
    next => rfl
    next h =>
      have hempty : emission.text.isEmpty = true := by simpa using h
      rw [emit, if_pos hempty]
      rfl

theorem output_emitAll (canvas : Canvas) (emitted : List Emission) :
    (canvas.emitAll emitted).output = canvas.output ++ written emitted := by
  induction emitted generalizing canvas with
  | nil => exact (String.append_empty).symm
  | cons emission emitted ih =>
    rw [emitAll_cons, ih, output_emit, written_cons, String.append_assoc]

/-- **Every text has its fragment**, which starts where the texts before it end. -/
theorem fragments_emitAll (canvas : Canvas) {emitted : List Emission}
    (texts : ∀ e ∈ emitted, e.text ≠ "") :
    (canvas.emitAll emitted).fragments.toList = canvas.fragments.toList ++ emitted.mapIdx fun i e =>
      ⟨e.text, canvas.location.advance (written (emitted.take i)).toList, e.origin⟩ := by
  induction emitted generalizing canvas with
  | nil => exact (List.append_nil _).symm
  | cons emission emitted ih =>
    obtain ⟨hfirst, hrest⟩ := List.forall_mem_cons.1 texts
    have hemit : canvas.emit emission.text emission.origin =
        ⟨canvas.fragments.push ⟨emission.text, canvas.location, emission.origin⟩,
          canvas.location.advance emission.text.toList⟩ :=
      if_neg (mt String.isEmpty_iff.1 hfirst)
    rw [emitAll_cons, ih _ hrest, hemit, Array.toList_push, List.append_assoc, List.mapIdx_cons]
    -- What was written before a later text starts with the first one.
    simp only [List.take_succ_cons, written_cons, String.toList_append, Location.advance_append]
    rfl

end Canvas

/-! ## Calls of a drawing -/

namespace Renderer

variable {K α : Type}

/-- The calls of `Drawing.emit` in the run of a drawing, where `call` renders the nodes that are
called for and `called` gives the calls made by this. -/
def emissions (document : Document K)
    (call : NodeId → Array NodeId → Nat → Canvas → Except (RenderStop K) Unit × Canvas)
    (called : NodeId → Array NodeId → Nat → Canvas → List Emission) :
    Drawing K α → Canvas → List Emission
  | .pure _, _ => []
  | .fail _, _ => []
  | .outOfBounds, _ => []
  | .emit text origin next, canvas =>
    ⟨text, origin⟩ :: emissions document call called next (canvas.emit text origin)
  | .render id siblings index next, canvas =>
    called id siblings index canvas ++
      match call id siblings index canvas with
      | (.ok (), canvas) => emissions document call called (next (.ok ())) canvas
      | (.error (.failed error), canvas) =>
        emissions document call called (next (.error error)) canvas
      | (.error _, _) => []
  | .look next, canvas => emissions document call called (next document canvas) canvas

/-- **The canvas after a drawing is the one before it with the calls made**, if that is so of the
nodes that it renders. -/
theorem draw_emissions (document : Document K)
    {call : NodeId → Array NodeId → Nat → Canvas → Except (RenderStop K) Unit × Canvas}
    {called : NodeId → Array NodeId → Nat → Canvas → List Emission}
    (hcall : ∀ id siblings index canvas,
      (call id siblings index canvas).2 = canvas.emitAll (called id siblings index canvas))
    (drawing : Drawing K α) (canvas : Canvas) :
    (draw document call drawing canvas).2 =
      canvas.emitAll (emissions document call called drawing canvas) := by
  induction drawing generalizing canvas with
  | pure value => rfl
  | fail error => rfl
  | outOfBounds => rfl
  | emit text origin next ih => exact ih _
  | render id siblings index next ih =>
    -- The calls made by the node come first, and how the drawing goes on depends on its outcome.
    have hcanvas := hcall id siblings index canvas
    rw [draw, emissions, Canvas.emitAll_append, ← hcanvas]
    generalize call id siblings index canvas = outcome
    obtain ⟨result, after⟩ := outcome
    cases result with
    | ok value => exact ih _ after
    | error stop =>
      cases stop with
      | failed error => exact ih _ after
      | outOfBounds => rfl
      | tooDeep => rfl
  | look next ih => exact ih _ _ _

variable [DecidableEq K]

/-- The calls made by rendering a node, with at most the given number of calls for nodes inside each
other. -/
def nodeEmissions (document : Document K) (functions : List (Role K × DrawFunction K)) :
    Nat → NodeId → Array NodeId → Nat → Canvas → List Emission
  | 0, _, _, _, _ => []
  | n + 1, id, siblings, index, canvas =>
    match document.node? id with
    | none => []
    | some node =>
      match function? functions node.role with
      | none => []
      | some function =>
        emissions document (renderNode document functions n) (nodeEmissions document functions n)
          (function node siblings index) canvas

theorem renderNode_emissions (document : Document K) (functions : List (Role K × DrawFunction K))
    (n : Nat) (id : NodeId) (siblings : Array NodeId) (index : Nat) (canvas : Canvas) :
    (renderNode document functions n id siblings index canvas).2 =
      canvas.emitAll (nodeEmissions document functions n id siblings index canvas) := by
  induction n generalizing id siblings index canvas with
  | zero => rfl
  | succ n ih =>
    rw [renderNode, nodeEmissions]
    cases document.node? id with
    | none => rfl
    | some node =>
      dsimp only
      cases function? functions node.role with
      | none => rfl
      | some function => exact draw_emissions document ih _ canvas

/-! ## Calls of a rendering -/

/-- The calls of `Drawing.emit` in a rendering. -/
def emissionsWithin (renderer : Renderer K) (depth : Nat) (document : Document K) :
    List Emission :=
  let root : Drawing K Unit := (Drawing.node rootId).bind Drawing.children
  emissions document (renderNode document renderer.functions depth)
    (nodeEmissions document renderer.functions depth) root {}

/-- What was rendered is what was emitted. -/
theorem eq_rendered_of_renderWithin {renderer : Renderer K} {depth : Nat} {document : Document K}
    {result : Rendered} (h : renderer.renderWithin depth document = .ok result) :
    result = rendered document renderer.options
      (Canvas.emitAll {} (Emission.nonempty (renderer.emissionsWithin depth document))) := by
  have hcanvas := draw_emissions document (renderNode_emissions document renderer.functions depth)
    ((Drawing.node rootId).bind Drawing.children) {}
  rw [Canvas.emitAll_nonempty, emissionsWithin, ← hcanvas]
  rw [renderWithin] at h
  generalize draw document (renderNode document renderer.functions depth)
    ((Drawing.node rootId).bind Drawing.children) {} = outcome at h ⊢
  obtain ⟨value, canvas⟩ := outcome
  cases value with
  | error stop => cases h
  | ok value => exact (Except.ok.inj h).symm

end Renderer

/-! ## Where bytes come from -/

open Emission

/-- A source map tells which call wrote what, for calls that all have a text. -/
structure SourceMap.Locates (map : SourceMap) (emitted : List Emission) : Prop where
  /-- The mappings are those of the calls, in order. -/
  mappings : map.mappings.toList = emitted.mapIdx fun i e => ⟨place emitted i, e.origin⟩
  first : ∀ mapping, map.mappings[0]? = some mapping → mapping.generated.offset = 0
  increasing : map.mappings.toList.Pairwise fun a b => a.generated.offset < b.generated.offset
  /-- For a byte of the output, the mapping of the text that it belongs to is found. -/
  inside : ∀ offset < (written emitted).utf8ByteSize, ∃ i e, emitted[i]? = some e ∧
    (place emitted i).offset ≤ offset ∧ offset < (place emitted i).offset + e.text.utf8ByteSize ∧
    map.lookup? offset = some ⟨place emitted i, e.origin⟩
  /-- Past the end of the output, the last mapping is found. -/
  beyond : ∀ offset, (written emitted).utf8ByteSize ≤ offset →
    map.lookup? offset = map.mappings.back?
  none_iff : ∀ offset, map.lookup? offset = none ↔ emitted = []

namespace SourceMap

variable {map : SourceMap} {emitted : List Emission}

section Mappings

variable (mappings : map.mappings.toList = emitted.mapIdx fun i e => ⟨place emitted i, e.origin⟩)

include mappings

theorem getElem?_mappings (index : Nat) :
    map.mappings[index]? = emitted[index]?.map fun e => ⟨place emitted index, e.origin⟩ := by
  rw [← Array.getElem?_toList, mappings, List.getElem?_mapIdx]

theorem size_mappings : map.mappings.size = emitted.length := by
  rw [← Array.length_toList, mappings, List.length_mapIdx]

/-- The mapping of a call starts at or before an offset if its text does. -/
theorem startsBefore_iff (offset index : Nat) :
    StartsBefore map.mappings offset index ↔
      index < emitted.length ∧ (place emitted index).offset ≤ offset := by
  rw [StartsBefore, getElem?_mappings mappings]
  cases h : emitted[index]? with
  | none =>
    have houtside := List.getElem?_eq_none_iff.1 h
    constructor
    · rintro ⟨mapping, hmapping, -⟩
      cases hmapping
    · rintro ⟨hinside, -⟩
      exact absurd houtside (Nat.not_le_of_lt hinside)
  | some e =>
    obtain ⟨hinside, -⟩ := List.getElem?_eq_some_iff.1 h
    simp [hinside]

/-- The mapping of a call is found for an offset if its text starts there or before, and the texts
of later calls do not. -/
theorem lookup?_place {found offset : Nat} {e : Emission} (call : emitted[found]? = some e)
    (starts : (place emitted found).offset ≤ offset)
    (later : ∀ next < emitted.length, found < next → offset < (place emitted next).offset) :
    map.lookup? offset = some ⟨place emitted found, e.origin⟩ := by
  have ordered (index : Nat) : StartsBefore map.mappings offset index ↔ index ≤ found := by
    rw [startsBefore_iff mappings]
    constructor
    · rintro ⟨hinside, hle⟩
      by_contra hlater
      have hlt := later index hinside (Nat.lt_of_not_le hlater)
      omega
    · intro hle
      obtain ⟨hfound, -⟩ := List.getElem?_eq_some_iff.1 call
      exact ⟨Nat.lt_of_le_of_lt hle hfound, (place_offset_mono emitted hle).trans starts⟩
  rw [lookup?_eq ordered, getElem?_mappings mappings, call]
  rfl

/-- For a byte of a text, the mapping of its call is found. -/
theorem lookup?_inside {found offset : Nat} {e : Emission} (call : emitted[found]? = some e)
    (starts : (place emitted found).offset ≤ offset)
    (stops : offset < (place emitted found).offset + e.text.utf8ByteSize) :
    map.lookup? offset = some ⟨place emitted found, e.origin⟩ := by
  refine lookup?_place mappings call starts fun next _ hnext => ?_
  have hend := place_succ_offset call
  have hmono : (place emitted (found + 1)).offset ≤ (place emitted next).offset :=
    place_offset_mono emitted hnext
  omega

/-- Past the end, the last mapping is found, if there is any. -/
theorem lookup?_beyond {offset : Nat} (past : (written emitted).utf8ByteSize ≤ offset) :
    map.lookup? offset = map.mappings.back? := by
  rw [Array.back?_eq_getElem?, size_mappings mappings, getElem?_mappings mappings]
  cases h : emitted[emitted.length - 1]? with
  | none =>
    have hempty : emitted.length ≤ emitted.length - 1 := List.getElem?_eq_none_iff.1 h
    refine lookup?_eq_none fun index hstarts => ?_
    obtain ⟨hinside, -⟩ := (startsBefore_iff mappings offset index).1 hstarts
    omega
  | some e =>
    refine lookup?_place mappings h ?_ fun next hinside hnext => by omega
    have hmono := place_offset_mono emitted (Nat.sub_le emitted.length 1)
    have hall : (place emitted emitted.length).offset = (written emitted).utf8ByteSize := by
      rw [place_offset, List.take_length]
    omega

/-- Nothing is found only if nothing was emitted. -/
theorem lookup?_eq_none_iff (offset : Nat) : map.lookup? offset = none ↔ emitted = [] := by
  constructor
  · intro hnone
    by_cases h : offset < (written emitted).utf8ByteSize
    · obtain ⟨i, e, call, starts, stops⟩ := exists_place h
      cases hnone.symm.trans (lookup?_inside mappings call starts stops)
    · have hback := (lookup?_beyond mappings (Nat.le_of_not_lt h)).symm.trans hnone
      have hsize := size_mappings mappings
      rw [Array.back?_eq_none_iff.1 hback] at hsize
      exact List.eq_nil_of_length_eq_zero hsize.symm
  · rintro rfl
    refine lookup?_eq_none fun index hstarts => ?_
    obtain ⟨hinside, -⟩ := (startsBefore_iff mappings offset index).1 hstarts
    cases hinside

/-- **A source map with the mappings of the calls locates all that they wrote.** -/
theorem locates_of_mappings (texts : ∀ e ∈ emitted, e.text ≠ "") : map.Locates emitted where
  mappings := mappings
  first mapping h := by
    rw [getElem?_mappings mappings] at h
    obtain ⟨e, -, rfl⟩ := Option.map_eq_some_iff.1 h
    rfl
  increasing := by
    rw [mappings, List.pairwise_iff_getElem]
    intro i j hi hj h
    rw [List.getElem_mapIdx, List.getElem_mapIdx]
    exact place_offset_lt texts h (by rwa [List.length_mapIdx] at hi)
  inside offset h := by
    obtain ⟨i, e, call, starts, stops⟩ := exists_place h
    exact ⟨i, e, call, starts, stops, lookup?_inside mappings call starts stops⟩
  beyond _ h := lookup?_beyond mappings h
  none_iff := lookup?_eq_none_iff mappings

end Mappings

end SourceMap

namespace Renderer

variable {K : Type} [DecidableEq K]

/-- **Source maps locate every byte of the output.** A rendering that succeeds has written the texts
that were emitted, and its source map, if there is one, tells for every byte which call wrote it.
This does not depend on how deep calls may go, and what is rendered within a bound is rendered the
same within all greater ones. -/
theorem locates_render (renderer : Renderer K) (document : Document K) :
    (renderer.render document).1 = renderer.renderWithin (walkDepth document) document ∧
    (∀ depth more, renderer.renderWithin depth document ≠ .error .tooDeep → depth ≤ more →
      renderer.renderWithin more document = renderer.renderWithin depth document) ∧
    ∀ (depth : Nat) (result : Rendered) (map : SourceMapOutput),
      renderer.renderWithin depth document = .ok result → result.sourceMap = some map →
        let emitted := nonempty (renderer.emissionsWithin depth document)
        result.output = written emitted ∧ result.fragments = emitted.length ∧
          map.mappings = map.toMap.mappings ∧ map.toMap.Locates emitted := by
  refine ⟨rfl, fun _ _ => renderWithin_of_le, ?_⟩
  intro depth result map h hmap emitted
  obtain rfl := eq_rendered_of_renderWithin h
  have texts : ∀ e ∈ emitted, e.text ≠ "" := by
    intro e he
    have hkept := (List.mem_filter.1 he).2
    simpa using hkept
  have hfragments := Canvas.fragments_emitAll {} texts
  have hsame : map.mappings = map.toMap.mappings := by cases map <;> rfl
  refine ⟨?_, ?_, hsame, SourceMap.locates_of_mappings ?_ texts⟩
  · exact (Canvas.output_emitAll {} emitted).trans (String.empty_append)
  · have hlength := congrArg List.length hfragments
    rw [Array.length_toList, List.length_append, List.length_mapIdx] at hlength
    exact hlength.trans (Nat.zero_add _)
  · rw [← hsame, mappings_rendered hmap, Array.toList_map, hfragments]
    refine List.ext_getElem? fun i => ?_
    rw [List.nil_append, List.getElem?_map, List.getElem?_mapIdx, List.getElem?_mapIdx,
      Option.map_map]
    rfl

/-- Every token is written on a line of its own, after a call without a text. -/
theorem locates_render_lines :
    let first : Span := .covering .start ['é'] "p"
    let second : Span := .covering first.stop ['b'] "p"
    let document : Document Unit :=
      { nodes := #[
          { role := .root, raw := "", span := .point .start "p", children := #[1, 2] },
          { role := .token (), raw := "é", span := first, parent := some 0 },
          { role := .token (), raw := "b", span := second, parent := some 0 }]
        source := "éb"
        label := "p"
        diagnostics := #[] }
    let renderer := (Renderer.new { sourceMap := .generator }).register (.token ()) fun node _ _ =>
      .emit "" node.span <| .emit "\n" node.span <| .raw node
    let builder : SourceMapBuilder :=
      { sources := #["p"]
        contents := #[some "éb"]
        mappings := #[⟨⟨0, 1, 1⟩, first⟩, ⟨⟨1, 2, 1⟩, first⟩, ⟨⟨3, 2, 2⟩, second⟩,
          ⟨⟨4, 3, 1⟩, second⟩] }
    renderer.renderWithin 1 document = .ok ⟨"\né\nb", 4, some (.generator builder)⟩ ∧
      builder.finish.Locates [⟨"\n", first⟩, ⟨"é", first⟩, ⟨"\n", second⟩, ⟨"b", second⟩] := by
  intro first second document renderer builder
  have hresult : renderer.renderWithin 1 document =
      .ok ⟨"\né\nb", 4, some (.generator builder)⟩ := by
    decide +kernel
  have hemitted : nonempty (renderer.emissionsWithin 1 document) =
      [⟨"\n", first⟩, ⟨"é", first⟩, ⟨"\n", second⟩, ⟨"b", second⟩] := by
    decide +kernel
  obtain ⟨-, -, hlocates⟩ := locates_render renderer document
  obtain ⟨-, -, -, located⟩ := hlocates 1 _ _ hresult rfl
  rw [hemitted] at located
  exact ⟨hresult, located⟩

end Renderer

end GlobTree
