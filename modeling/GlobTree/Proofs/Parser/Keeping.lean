import GlobTree.Parser.Basic
import GlobTree.Proofs.Parser.Growth
/-!
# What a parse keeps

Whatever handlers do, a parse only adds to what there is: nodes get new children but are otherwise
as they were made, problems that were noted stay noted, and the options stay the same.
`ParseState.Keeps` says so of two states, with the notes that were added. Every program leads from a
state to one that keeps it (`Program.run_keeps`), whether it fails or not, and so do the turns of a
parser with any table of handlers (`Parser.turns_keeps`).
-/

namespace GlobTree

variable {K M : Type}

/-- Adding a node gives others a child at most. -/
theorem Arena.node?_of_append? {arena next : Arena K} {parent id new : NodeId} {added node : Node K}
    (h : arena.append? parent added = some (new, next)) (hnode : arena.node? id = some node) :
    ∃ children, next.node? id = some { node with children := children } := by
  rw [append?] at h
  split at h
  case isFalse => cases h
  case isTrue hparent =>
    cases h
    have hlt : id < arena.nodes.size := (Array.getElem?_eq_some_iff.1 hnode).1
    have hget : arena.nodes[id]? = some node := hnode
    simp only [node?, Array.getElem?_modify, Array.getElem?_push, if_neg (Nat.ne_of_lt hlt), hget]
    split
    · exact ⟨node.children.push arena.size, rfl⟩
    · exact ⟨node.children, rfl⟩

namespace ParseState

/-- A state has all that an earlier one had, and some more notes. -/
structure Keeps (before : ParseState K) (notes : List Diagnostic) (after : ParseState K) :
    Prop where
  options : after.options = before.options
  notes : after.diagnostics.toList = before.diagnostics.toList ++ notes
  /-- Nodes are as they were, but for their children. -/
  nodes : ∀ {id node}, before.arena.node? id = some node →
    ∃ children, after.arena.node? id = some { node with children := children }

theorem Keeps.refl (state : ParseState K) : state.Keeps [] state :=
  ⟨rfl, (List.append_nil _).symm, fun h => ⟨_, h⟩⟩

theorem Keeps.trans {state next last : ParseState K} {notes more : List Diagnostic}
    (h : state.Keeps notes next) (hlast : next.Keeps more last) :
    state.Keeps (notes ++ more) last where
  options := hlast.options.trans h.options
  notes := by rw [hlast.notes, h.notes, List.append_assoc]
  nodes hnode := by
    obtain ⟨_, hnext⟩ := h.nodes hnode
    obtain ⟨children, hafter⟩ := hlast.nodes hnext
    exact ⟨children, hafter⟩

/-- What happens first only adds to a state, and so does what happens then. -/
theorem Keeps.then {state next last : ParseState K} {notes : List Diagnostic}
    (h : state.Keeps notes next)
    (hlast : ∃ more, next.Keeps more last) : ∃ more, state.Keeps more last := by
  obtain ⟨more, hlast⟩ := hlast
  exact ⟨notes ++ more, h.trans hlast⟩

/-! ## Single operations -/

variable {state next : ParseState K}

theorem feed_keeps (state : ParseState K) (chunk : List Char) : state.Keeps [] (state.feed chunk) :=
  ⟨rfl, (List.append_nil _).symm, fun h => ⟨_, h⟩⟩

theorem eat?_keeps {rule : Rule} {found : Option RuleMatch}
    (h : state.eat? rule = some (found, next)) : state.Keeps [] next := by
  rw [eat?] at h
  split at h
  · cases h
    exact .refl state
  · obtain ⟨moved, hmoved, heq⟩ := Option.map_eq_some_iff.1 h
    cases heq
    obtain ⟨_, -, rfl⟩ := Option.map_eq_some_iff.1 hmoved
    exact ⟨rfl, (List.append_nil _).symm, fun h => ⟨_, h⟩⟩

theorem appendTo?_keeps {parent id : NodeId} {node : Node K}
    (h : state.appendTo? parent node = some (id, next)) : state.Keeps [] next := by
  obtain ⟨⟨new, arena⟩, happend, heq⟩ := Option.map_eq_some_iff.1 h
  cases heq
  exact ⟨rfl, (List.append_nil _).symm, fun hnode => Arena.node?_of_append? happend hnode⟩

theorem append?_keeps {id : NodeId} {node : Node K} (h : state.append? node = some (id, next)) :
    state.Keeps [] next :=
  appendTo?_keeps h

theorem push_note_keeps (state : ParseState K) (note : Diagnostic) :
    state.Keeps [note] { state with diagnostics := state.diagnostics.push note } :=
  ⟨rfl, Array.toList_push, fun h => ⟨_, h⟩⟩

theorem report_keeps (state : ParseState K) (message : String) :
    ∃ notes, state.Keeps notes (state.report message).2 := by
  cases hmode : state.options.errorMode with
  | collect =>
    rw [report_collect state hmode]
    exact ⟨_, state.push_note_keeps _⟩
  | throw =>
    rw [report_throw state hmode]
    exact ⟨[], .refl state⟩

variable [DecidableEq K]

theorem openGroup?_keeps {kind : K} {start : Mark} {lead : Option String} {id : NodeId}
    (h : state.openGroup? kind start lead = some (id, next)) : state.Keeps [] next := by
  obtain ⟨⟨group, outside⟩, hgroup, h⟩ := Option.bind_eq_some_iff.1 h
  obtain ⟨token, -, h⟩ := Option.bind_eq_some_iff.1 h
  obtain ⟨⟨_, inside⟩, htoken, h⟩ := Option.bind_eq_some_iff.1 h
  cases h
  have hinside := appendTo?_keeps htoken
  exact (append?_keeps hgroup).trans ⟨hinside.options, hinside.notes, hinside.nodes⟩

theorem closeGroup?_keeps {kind : K} {start : Mark} {trail : Option String}
    {result : Except (ParseError K) NodeId}
    (h : state.closeGroup? kind start trail = some (result, next)) : state.Keeps [] next := by
  rw [closeGroup?] at h
  split at h
  · obtain ⟨raw, -, h⟩ := Option.bind_eq_some_iff.1 h
    cases h
    exact .refl state
  · obtain ⟨token, -, h⟩ := Option.bind_eq_some_iff.1 h
    obtain ⟨⟨id, closed⟩, hclosed, h⟩ := Option.bind_eq_some_iff.1 h
    cases h
    have hgrown := appendTo?_keeps hclosed
    exact ⟨hgrown.options, hgrown.notes, hgrown.nodes⟩

end ParseState

variable [DecidableEq K]

/-! ## Runs -/

/-- **A program only adds to a state.** -/
theorem Program.run_keeps {α : Type} (program : Program K M α) (state : ParseState K) (memory : M) :
    ∃ notes, state.Keeps notes (program.run state memory).state := by
  induction program generalizing state memory with
  | pure | fail | outOfBounds => exact ⟨[], .refl state⟩
  | look next ih => exact ih state state memory
  | «recall» next ih => exact ih memory state memory
  | store stored next ih => exact ih state stored
  | report message next ih =>
    obtain ⟨notes, hreport⟩ := state.report_keeps message
    exact hreport.then (ih _ _ memory)
  | eat rule next ih =>
    rw [run]
    split
    next found moved h => exact (ParseState.eat?_keeps h).then (ih found moved memory)
    next => exact ⟨[], .refl state⟩
  | append node next ih =>
    rw [run]
    split
    next id grown h => exact (ParseState.append?_keeps h).then (ih id grown memory)
    next => exact ⟨[], .refl state⟩
  | openGroup kind start lead next ih =>
    rw [run]
    split
    next id grown h => exact (ParseState.openGroup?_keeps h).then (ih id grown memory)
    next => exact ⟨[], .refl state⟩
  | closeGroup kind start trail next ih =>
    rw [run]
    split
    next result grown h => exact (ParseState.closeGroup?_keeps h).then (ih result grown memory)
    next => exact ⟨[], .refl state⟩

namespace Parser

theorem turn_keeps (start : Nat) (handlers : List (Handler K M)) (state : ParseState K)
    (memory : M) : ∃ notes, state.Keeps notes (turn start handlers state memory).state := by
  induction handlers generalizing state memory with
  | nil => exact ⟨[], .refl state⟩
  | cons handler handlers ih =>
    obtain ⟨notes, hfirst⟩ := handler.program.run_keeps state memory
    rw [turn]
    split
    next next memory h =>
      rw [h] at hfirst
      split
      · exact ⟨notes, hfirst⟩
      · exact hfirst.then (ih next memory)
    next h =>
      rw [h] at hfirst
      exact ⟨notes, hfirst⟩

/-- **The turns of a parser only add to its state**, whatever its handlers are. -/
theorem turns_keeps (handlers : List (Handler K M)) (n : Nat) (state : ParseState K) (memory : M) :
    ∃ notes, state.Keeps notes (turns handlers n state memory).state := by
  induction n generalizing state memory with
  | zero => exact ⟨[], .refl state⟩
  | succ n ih =>
    obtain ⟨notes, hturn⟩ := turn_keeps state.cursor handlers state memory
    rw [turns]
    split
    · exact ⟨[], .refl state⟩
    · split
      next next memory h =>
        rw [h] at hturn
        exact hturn.then (ih next memory)
      all_goals
        next h =>
          rw [h] at hturn
          exact ⟨notes, hturn⟩

/-- **A parser that is fed keeps what it has.** -/
theorem feed_keeps (parser : Parser K M) (chunk : String) :
    ∃ notes, parser.state.Keeps notes (parser.feed chunk).2.state := by
  rw [feed, guard]
  split
  · exact ⟨[], .refl parser.state⟩
  · exact (parser.state.feed_keeps chunk.toList).then (turns_keeps _ _ _ _)

/-- The node for the end of a text. -/
def endNode (state : ParseState K) : Node K where
  role := .eos
  raw := ""
  span := .point state.location state.label
  made := some state.moment

omit [DecidableEq K] in
/-- A document is what there was, with one more node for the end. -/
theorem append?_endNode_of_finishState {state : ParseState K} {document : Document K}
    (h : finishState state = .ok document) : ∃ new arena,
      state.arena.append? rootId (endNode state) = some (new, arena) ∧
        document = { state.document with toArena := arena } := by
  rw [finishState] at h
  dsimp only at h
  split at h
  · split at h <;> cases h
  · split at h
    next new arena happend =>
      cases h
      exact ⟨new, arena, happend, rfl⟩
    next => cases h

omit [DecidableEq K] in
theorem exists_append?_of_finishState {state : ParseState K} {document : Document K}
    (h : finishState state = .ok document) : ∃ new arena eos,
      state.arena.append? rootId eos = some (new, arena) ∧
        document = { state.document with toArena := arena } := by
  obtain ⟨new, arena, happend, hdocument⟩ := append?_endNode_of_finishState h
  exact ⟨new, arena, _, happend, hdocument⟩

omit [DecidableEq K] in
/-- What a parser hands over is what there was, with one more node for the end. -/
theorem append?_endNode_of_finish {parser : Parser K M} {document : Document K}
    (finished : parser.finish.1 = .ok document) : ∃ new arena,
      parser.state.arena.append? rootId (endNode parser.state) = some (new, arena) ∧
        document = { parser.state.document with toArena := arena } := by
  rw [finish, guard] at finished
  split at finished
  · cases finished
  · cases hstate : finishState parser.state with
    | error stop =>
      rw [hstate] at finished
      cases finished
    | ok other =>
      rw [hstate] at finished
      cases finished
      exact append?_endNode_of_finishState hstate

omit [DecidableEq K] in
/-- **A document has the nodes of the parser**, and the end besides. -/
theorem node?_of_finish {parser : Parser K M} {document : Document K} {id : NodeId} {node : Node K}
    (finished : parser.finish.1 = .ok document) (hnode : parser.state.arena.node? id = some node) :
    ∃ children, document.node? id = some { node with children := children } := by
  obtain ⟨_, _, happend, rfl⟩ := append?_endNode_of_finish finished
  exact Arena.node?_of_append? happend hnode

end Parser

end GlobTree
