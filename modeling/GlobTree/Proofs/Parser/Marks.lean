import GlobTree.Proofs.Parser.OpenGroups
/-!
# Marks

A handler may remember a place and make a node for the text that was read since then. What happens to
one document from some state on is that text is fed and programs run (`ParseState.Later`). A mark that
was taken in an earlier state of the same document is the place after some first part of what was read
(`ParseState.Marks`), and so the nodes that are made with it take up just the text that they have
(`Node.Spans`), however much is read or fed in between (`Parser.spans_of_later`).

A mark can be kept beyond the end of its document. Then it is any place. No node can be made with it
if its offset is inside of a character, and otherwise the node starts at the place of the mark even if
that was not reached yet (`ParseState.node?_eq_none_iff`, `ParseState.Sound.spans_iff_isLE`).
-/

namespace GlobTree

variable {K M : Type}

/-! ## Nodes and their part of the source -/

/-- A node stops where it starts or later, and its text is the part of the source in between. -/
structure Node.Spans (node : Node K) (document : Document K) : Prop where
  ordered : (compare node.span.start node.span.stop).isLE
  raw : document.slice? node.span.start.offset node.span.stop.offset = some node.raw

theorem Node.spans_of_source {node : Node K} {document : Document K} {before raw rest : List Char}
    (hsource : document.source.toList = before ++ (raw ++ rest))
    (hstart : node.span.start = Location.start.advance before)
    (hstop : node.span.stop = Location.start.advance (before ++ raw))
    (hraw : node.raw = String.ofList raw) : node.Spans document where
  ordered := by
    rw [hstart, hstop, Location.advance_append]
    exact Location.isLE_advance _ raw
  raw := by
    rw [hstart, hstop, hraw, Document.slice?, hsource, Location.advance_offset,
      Location.advance_offset, Location.start_offset, byteLength_append, Nat.zero_add, Nat.zero_add,
      sliceBytes?_append]
    rfl

namespace ParseState

/-! ## Later states of a document -/

/-- What becomes of a state when texts are fed and programs run, in any order. -/
inductive Later [DecidableEq K] (state : ParseState K) : ParseState K → Prop
  | refl : Later state state
  | feed {next : ParseState K} (h : Later state next) (chunk : List Char) :
    Later state (next.feed chunk)
  | run {next : ParseState K} (h : Later state next) {M α : Type} (program : Program K M α)
    (memory : M) : Later state (program.run next memory).state

section Later

variable [DecidableEq K] {state next : ParseState K} {P : ParseState K → Prop}

/-- **What every operation and adding text keep holds of all later states.** -/
theorem Later.of_kept (h : state.Later next) (kept : Kept P)
    (feed : ∀ state chunk, P state → P (state.feed chunk)) (hstate : P state) : P next := by
  induction h with
  | refl => exact hstate
  | feed _ chunk ih => exact feed _ chunk ih
  | run _ program memory ih => exact program.run_kept kept ih memory

theorem Later.sound (h : state.Later next) (sound : state.Sound) : next.Sound :=
  h.of_kept kept_sound (fun _ chunk h => h.feed chunk) sound

/-- The text of a later state starts with the text so far. -/
theorem Later.exists_text (h : state.Later next) :
    ∃ more, next.reader.text = state.reader.text ++ more := by
  refine h.of_kept (P := fun next => ∃ more, next.reader.text = state.reader.text ++ more)
    (.of_reading ?_ ?_) ?_ ⟨[], (List.append_nil _).symm⟩
  · rintro before after same ⟨more, hmore⟩
    exact ⟨more, (congrArg Reader.text same.reader).trans hmore⟩
  · rintro before text rest split ⟨more, hmore⟩
    refine ⟨more, Eq.trans ?_ hmore⟩
    show (before.past text rest split).consumed ++ rest = before.consumed ++ before.remaining
    rw [past_consumed, split, List.append_assoc]
  · rintro before chunk ⟨more, hmore⟩
    refine ⟨more ++ chunk, ?_⟩
    show before.consumed ++ (before.remaining ++ chunk) = _
    rw [← List.append_assoc, ← List.append_assoc, ← hmore]
    rfl

end Later

/-! ## Marks of a document -/

/-- A mark is the place after a first part of what was read. -/
def Marks (state : ParseState K) (start : Mark) : Prop :=
  ∃ before after, state.consumed = before ++ after ∧ start.location = Location.start.advance before

section Marks

variable {state marked : ParseState K} {start : Mark} {before after : List Char} {role : Role K}
  {node : Node K}

/-- A node covers the text from the mark on, where the mark is one. -/
theorem node?_of_split (split : state.consumed = before ++ after)
    (hoffset : byteLength before = min start.location.offset state.cursor) (role : Role K) :
    state.node? role start = some
      { role := role
        raw := String.ofList after
        span := ⟨start.location, state.location, state.label⟩
        made := some state.moment } := by
  have hcursor : state.cursor = byteLength before + byteLength after := by
    rw [cursor, Reader.cursor_eq_byteLength_consumed, ← byteLength_append, ← split]
    rfl
  have hcount : state.reader.cursor - start.location.offset = byteLength after.reverse := by
    rw [byteLength_reverse]
    rw [hcursor] at hoffset
    show state.cursor - _ = _
    omega
  have hbefore : state.reader.before = after.reverse ++ before.reverse := by
    rw [← List.reverse_append, ← split]
    exact (List.reverse_reverse _).symm
  rw [node?, Reader.since?, hcount, hbefore, takeBytes?_append, Option.map_some, Option.map_some,
    List.reverse_reverse]

/-- A node is only made from a mark that is between two characters, or beyond what was read. -/
theorem exists_split_of_node? (h : state.node? role start = some node) :
    ∃ before after, state.consumed = before ++ after ∧
      byteLength before = min start.location.offset state.cursor := by
  obtain ⟨raw, hraw, -⟩ := Option.map_eq_some_iff.1 h
  obtain ⟨taken, htaken, rfl⟩ := Option.map_eq_some_iff.1 hraw
  obtain ⟨⟨front, back⟩, hcut, rfl⟩ := Option.map_eq_some_iff.1 htaken
  have hsplit := append_of_splitBytes? hcut
  have hlength := congrArg byteLength hsplit
  rw [byteLength_append, byteLength_of_splitBytes? hcut, ← state.reader.cursor_eq] at hlength
  refine ⟨back.reverse, front.reverse, ?_, ?_⟩
  · rw [← List.reverse_append, hsplit]
    rfl
  · rw [byteLength_reverse]
    show _ = min _ state.reader.cursor
    omega

/-- **No node can be made with a mark inside of a character**, and with any other mark one can. -/
theorem node?_eq_none_iff (state : ParseState K) (role : Role K) (start : Mark) :
    state.node? role start = none ↔ ∀ before after, state.consumed = before ++ after →
      byteLength before ≠ min start.location.offset state.cursor := by
  constructor
  · intro hnone before after split hoffset
    rw [node?_of_split split hoffset role] at hnone
    cases hnone
  · intro hinside
    cases hnode : state.node? role start with
    | none => rfl
    | some node =>
      obtain ⟨before, after, split, hoffset⟩ := exists_split_of_node? hnode
      exact absurd hoffset (hinside before after split)

variable [DecidableEq K]

theorem Sound.location_eq (h : state.Sound) :
    state.location = Location.start.advance state.consumed := by
  obtain ⟨draft, hfollows, -⟩ := h.follows
  exact hfollows.location

theorem Sound.offset_eq (h : state.Sound) : state.location.offset = state.cursor := by
  obtain ⟨draft, hfollows, -⟩ := h.follows
  exact hfollows.offset

/-- **A node takes up just its own text** exactly if its mark does not come after the place that was
reached. -/
theorem Sound.spans_iff_isLE (h : state.Sound) (hnode : state.node? role start = some node) :
    node.Spans state.document ↔ (compare start.location state.location).isLE := by
  obtain ⟨before, after, split, hoffset⟩ := exists_split_of_node? hnode
  cases hnode.symm.trans (node?_of_split split hoffset role)
  refine ⟨fun spans => spans.ordered, fun hle => ⟨hle, ?_⟩⟩
  have hbefore : start.location.offset = byteLength before := by
    have := Location.offset_le_of_isLE hle
    rw [h.offset_eq] at this
    omega
  have hsource : state.document.source.toList = before ++ (after ++ state.remaining) := by
    rw [← List.append_assoc, ← split]
    exact String.toList_ofList
  have hstop : state.location.offset = byteLength before + byteLength after := by
    rw [h.location_eq, split, Location.advance_offset, Location.start_offset, byteLength_append,
      Nat.zero_add]
  show state.document.slice? start.location.offset state.location.offset = _
  rw [Document.slice?, hsource, hbefore, hstop, sliceBytes?_append]
  rfl

/-! ### Marks of the same document -/

/-- **A mark remains one while its document grows.** -/
theorem Sound.marks_of_later (h : marked.Sound) (hlater : marked.Later state) :
    state.Marks marked.mark := by
  refine hlater.of_kept (P := fun state => state.Marks marked.mark) (.of_reading ?_ ?_)
    (fun _ _ h => h) ⟨marked.consumed, [], (List.append_nil _).symm, h.location_eq⟩
  · rintro before after same ⟨first, rest, split, hstart⟩
    exact ⟨first, rest, (congrArg Reader.consumed same.reader).trans split, hstart⟩
  · rintro before text left split ⟨first, rest, hsplit, hstart⟩
    exact ⟨first, rest ++ text, by rw [past_consumed, hsplit, List.append_assoc], hstart⟩

/-- A node takes up just its own text, in this state and in all later ones. -/
def SpansFrom (state : ParseState K) (node : Node K) : Prop :=
  ∀ later, state.Later later → node.Spans later.document

/-- The source of all later documents around a mark. -/
theorem Later.source_eq {later : ParseState K} (h : state.Later later)
    (split : state.consumed = before ++ after) :
    ∃ rest, later.document.source.toList = before ++ (after ++ rest) := by
  obtain ⟨more, hmore⟩ := h.exists_text
  have htext : state.reader.text = state.consumed ++ state.remaining := rfl
  refine ⟨state.remaining ++ more, ?_⟩
  show (String.ofList later.reader.text).toList = _
  rw [String.toList_ofList, hmore, htext, split]
  simp only [List.append_assoc]

/-- **With a mark of the same document a node can be made**, and it takes up just its own text. -/
theorem Marks.exists_node? (hmarks : state.Marks start) (h : state.Sound) (role : Role K) :
    ∃ node, state.node? role start = some node ∧ state.SpansFrom node := by
  obtain ⟨before, after, split, hstart⟩ := hmarks
  have hoffset : byteLength before = min start.location.offset state.cursor := by
    rw [hstart, Location.advance_offset, Location.start_offset, cursor,
      Reader.cursor_eq_byteLength_consumed]
    show _ = min _ (byteLength state.consumed)
    rw [split, byteLength_append]
    omega
  refine ⟨_, node?_of_split split hoffset role, fun later hlater => ?_⟩
  obtain ⟨rest, hsource⟩ := hlater.source_eq split
  exact Node.spans_of_source hsource hstart (h.location_eq.trans (congrArg _ split)) rfl

/-- The node of a group takes up nothing. -/
theorem Marks.spansFrom_groupNode (hmarks : state.Marks start) (kind : K) (lead : Option String) :
    state.SpansFrom (state.groupNode kind start lead) := by
  obtain ⟨before, after, split, hstart⟩ := hmarks
  intro later hlater
  obtain ⟨rest, hsource⟩ := hlater.source_eq split
  have hnothing : later.document.source.toList = before ++ ([] ++ (after ++ rest)) := hsource
  have hstop : start.location = Location.start.advance (before ++ []) := by
    rw [List.append_nil, hstart]
  exact Node.spans_of_source hnothing hstart hstop rfl

/-- Only the span and the text of a node matter. -/
theorem SpansFrom.congr {other : Node K} (h : state.SpansFrom node) (hspan : other.span = node.span)
    (hraw : other.raw = node.raw) : state.SpansFrom other := by
  intro later hlater
  obtain ⟨hordered, hslice⟩ := h later hlater
  exact ⟨by rwa [hspan], by rwa [hspan, hraw]⟩

/-! ### What handlers make with a mark -/

/-- A token is added. -/
theorem Marks.exists_push? (hmarks : state.Marks start) (h : state.Sound) (kind : K) :
    ∃ id next node, state.push? kind start = some (id, next) ∧ next.arena.node? id = some node ∧
      state.SpansFrom node := by
  obtain ⟨draft, hfollows, -⟩ := h.follows
  obtain ⟨node, hnode, spans⟩ := hmarks.exists_node? h (.token kind)
  have hpush : state.push? kind start = state.append? node := by
    rw [push?, hnode]
    rfl
  exact ⟨_, _, _, hpush.trans (append?_eq state hfollows.top_lt_size node),
    Arena.node?_add_size hfollows.top_lt_size node, spans.congr rfl rfl⟩

/-- A group is opened, with its opening token as its only child. -/
theorem Marks.exists_openGroup? (hmarks : state.Marks start) (h : state.Sound) (kind : K)
    (lead : Option String) :
    ∃ id next group child opening, state.openGroup? kind start lead = some (id, next) ∧
      next.arena.node? id = some group ∧ state.SpansFrom group ∧
      group.children = #[child] ∧ next.arena.node? child = some opening ∧ state.SpansFrom opening := by
  obtain ⟨draft, hfollows, -⟩ := h.follows
  obtain ⟨first, hfirst, spans⟩ := hmarks.exists_node? h (.opening kind)
  let arena := state.arena.add (Arena.top state.nesting.stack) (state.groupNode kind start lead)
  have hlt : state.arena.size < arena.size := by
    rw [Arena.size_add]
    exact Nat.lt_succ_self _
  have hgroup := Arena.node?_add_size hfollows.top_lt_size (state.groupNode kind start lead)
  exact ⟨_, _, _, _, _, openGroup?_eq state hfollows.top_lt_size hfirst lead,
    Arena.node?_add_parent hgroup first, (hmarks.spansFrom_groupNode kind lead).congr rfl rfl, rfl,
    Arena.node?_add_size hlt first, spans.congr rfl rfl⟩

/-- A closing token is added, or it is said what is wrong. -/
theorem Marks.exists_closeGroup? (hmarks : state.Marks start) (h : state.Sound) (kind : K)
    (trail : Option String) :
    ∃ result next, state.closeGroup? kind start trail = some (result, next) ∧
      ∀ id, result = .ok id → ∃ node, next.arena.node? id = some node ∧ state.SpansFrom node := by
  obtain ⟨draft, hfollows, -⟩ := h.follows
  obtain ⟨node, hnode, spans⟩ := hmarks.exists_node? h (.closing kind)
  cases hpop : state.nesting.pop kind with
  | error mismatch =>
    obtain ⟨raw, hraw, -⟩ := Option.map_eq_some_iff.1 hnode
    rw [closeGroup?, hpop]
    simp only [hraw, bind, Option.bind_some]
    exact ⟨_, _, rfl, fun id h => by cases h⟩
  | ok popped =>
    obtain ⟨group, nesting⟩ := popped
    obtain ⟨stack, hstack⟩ := Nesting.exists_of_pop hpop
    have htop : Arena.top state.nesting.stack = group := by
      rw [hstack]
      rfl
    have hlt : group < state.arena.size := htop ▸ hfollows.top_lt_size
    refine ⟨_, _, closeGroup?_eq state hstack hlt hnode trail, fun id h => ?_⟩
    cases h
    exact ⟨_, Arena.node?_add_size hlt _, spans.congr rfl rfl⟩

end Marks

end ParseState

open ParseState

variable [DecidableEq K]

/-- **Nodes take up just their own text when they are made with a mark of their document.** Whatever
the handlers are and whatever calls a parser has had, failed ones and resets among them: with a mark
that was taken since the document was begun, nothing is out of bounds, and all nodes that are made
stop where they start or later and have the part of the source in between as their text. They still
do in all that becomes of the document.

With any other mark, a node is made unless the mark is inside of a character, and it takes up its own
text if and only if the mark does not come after the place that was reached. -/
theorem Parser.spans_of_later {handlers : List (Handler K M)} {options : ParserOptions} {memory : M}
    {calls : List Call} {marked state : ParseState K}
    (hmarked : ((ofHandlers handlers options memory).calls calls).2.state.Later marked)
    (hlater : marked.Later state) :
    (∀ role, ∃ node, state.node? role marked.mark = some node ∧ state.SpansFrom node) ∧
    (∀ kind, ∃ id next node, state.push? kind marked.mark = some (id, next) ∧
      next.arena.node? id = some node ∧ state.SpansFrom node) ∧
    (∀ kind lead, ∃ id next group child opening,
      state.openGroup? kind marked.mark lead = some (id, next) ∧
      next.arena.node? id = some group ∧ state.SpansFrom group ∧
      group.children = #[child] ∧ next.arena.node? child = some opening ∧ state.SpansFrom opening) ∧
    (∀ kind trail, ∃ result next, state.closeGroup? kind marked.mark trail = some (result, next) ∧
      ∀ id, result = .ok id → ∃ node, next.arena.node? id = some node ∧ state.SpansFrom node) ∧
    ∀ (start : Mark) (role : Role K),
      (state.node? role start = none ↔ ∀ before after, state.consumed = before ++ after →
        byteLength before ≠ min start.location.offset state.cursor) ∧
      ∀ node, state.node? role start = some node →
        (node.Spans state.document ↔ (compare start.location state.location).isLE) := by
  have hsound := hmarked.sound (sound_calls handlers options memory calls)
  have h := hlater.sound hsound
  have hmarks := hsound.marks_of_later hlater
  exact ⟨hmarks.exists_node? h, hmarks.exists_push? h, hmarks.exists_openGroup? h,
    hmarks.exists_closeGroup? h,
    fun start role => ⟨node?_eq_none_iff state role start, fun node => h.spans_iff_isLE⟩⟩

/-- After "é" was read, "b" is read and made a node. A mark in the middle of "é" makes none, and one
further on makes a node that starts after its end. -/
theorem Parser.spans_of_later_reset :
    let parser := (ofHandlers [.capture () Extglob.textRule] {} ()).calls
      [.feed "a", .reset, .feed "é"]
    let state := ((Program.tryEat Extglob.textRule).run (parser.2.state.feed ['b']) ()).state
    (∃ node, state.node? (.token ()) parser.2.state.mark = some node ∧ node.raw = "b" ∧
      state.SpansFrom node) ∧
    state.node? (.token ()) ⟨⟨1, 1, 2⟩⟩ = none ∧
    ∃ node, state.node? (.token ()) ⟨⟨5, 1, 6⟩⟩ = some node ∧ ¬ node.Spans state.document := by
  intro parser state
  have hlater : parser.2.state.Later state := .run (.feed .refl ['b']) _ ()
  obtain ⟨hmade, -, -, -, hother⟩ := Parser.spans_of_later .refl hlater
  have hraw : (state.node? (.token ()) parser.2.state.mark).map (·.raw) = some "b" := by
    decide +kernel
  have hnone : (state.node? (.token ()) ⟨⟨1, 1, 2⟩⟩).isNone := by decide +kernel
  have hsome : (state.node? (.token ()) ⟨⟨5, 1, 6⟩⟩).isSome := by decide +kernel
  have hplace : ¬ (compare (⟨5, 1, 6⟩ : Location) state.location).isLE := by decide +kernel
  obtain ⟨node, hnode, spans⟩ := hmade (.token ())
  obtain ⟨beyond, hbeyond⟩ := Option.isSome_iff_exists.1 hsome
  rw [hnode] at hraw
  exact ⟨⟨node, hnode, Option.some.inj hraw, spans⟩, Option.isNone_iff_eq_none.1 hnone,
    beyond, hbeyond, fun h => hplace (((hother _ _).2 beyond hbeyond).1 h)⟩

end GlobTree
