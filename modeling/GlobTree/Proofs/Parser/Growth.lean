import GlobTree.Parser.Program
import GlobTree.Proofs.Nesting
import GlobTree.Proofs.Parser.Draft
import GlobTree.Proofs.Text
/-!
# How a parse follows its draft

`ParseState.Follows` ties the state of a parse to a draft: the nodes, the open groups and the notes
are those of the draft, and the place is the one that the text read so far leads to.

The operations on a state are described for the moment at which a handler uses them, right after a
piece of text was read (`ParseState.past`). Then nothing is out of bounds, and each operation keeps
up with its counterpart on drafts: the state that it leaves is one that comes `Next`.
-/

namespace GlobTree

variable {K : Type}

/-- The open groups of a spine are of the kinds that their labels say. -/
theorem Arena.Spine.roles {arena : Arena K} {outer : List (Level (Entry K))}
    {stack : List (K × NodeId)} {inner : Forest (Entry K)} {tail : List NodeId} {next : Nat}
    (h : arena.Spine outer stack inner tail next) :
    outer.map (·.label.role) = stack.map fun group => .group group.1 := by
  induction h with
  | root => rfl
  | group role _ _ ih => rw [List.map_cons, List.map_cons, role, ih]

namespace ParseState

/-- The state after a piece of text was read, where `rest` is what is left after it. -/
def past (state : ParseState K) (text rest : List Char) (split : state.remaining = text ++ rest) :
    ParseState K :=
  { state with
    reader := state.reader.after text rest split
    location := state.location.advance text }

variable [DecidableEq K]

/-- The state follows a draft. -/
structure Follows (state : ParseState K) (draft : Draft K) : Prop where
  inStep : state.nesting.InStep
  spine : state.arena.Spine draft.zipper.outer state.nesting.stack draft.zipper.inner []
    state.arena.size
  notes : state.diagnostics = draft.notes
  location : state.location = Location.start.advance state.consumed

/-- The state that comes next when a piece of text was dealt with follows the next draft. -/
structure Next (state : ParseState K) (text rest : List Char) (draft : Draft K)
    (state' : ParseState K) : Prop where
  follows : state'.Follows draft
  options : state'.options = state.options
  remaining : state'.remaining = rest
  consumed : state'.consumed = state.consumed ++ text

omit [DecidableEq K] in
@[simp] theorem past_consumed (state : ParseState K) (text rest : List Char)
    (split : state.remaining = text ++ rest) :
    (state.past text rest split).consumed = state.consumed ++ text :=
  state.reader.consumed_after text rest split

theorem follows_fresh (options : ParserOptions) : (fresh options : ParseState K).Follows {} where
  inStep := Nesting.inStep_empty
  spine := .empty options.sourceLabel
  notes := rfl
  location := (Location.advance_nil .start).symm

namespace Follows

variable {state : ParseState K} {draft : Draft K}

/-- The draft does not depend on the text that is left. -/
theorem feed (h : state.Follows draft) (chunk : List Char) : (state.feed chunk).Follows draft :=
  ⟨h.inStep, h.spine, h.notes, h.location⟩

theorem offset (h : state.Follows draft) : state.location.offset = state.reader.cursor := by
  rw [h.location, Location.advance_offset, Location.start_offset, Nat.zero_add,
    Reader.cursor_eq_byteLength_consumed]
  rfl

theorem top_lt_size (h : state.Follows draft) : Arena.top state.nesting.stack < state.arena.size :=
  h.spine.top_lt_size

/-- The innermost open group is that of the draft. -/
theorem innermost? (h : state.Follows draft) :
    draft.innermost? = state.nesting.innermost?.map (·.1) := by
  have hroles := h.spine.roles
  rw [Draft.innermost?, Nesting.innermost?]
  cases houter : draft.zipper.outer <;> cases hstack : state.nesting.stack <;>
    simp_all [Role.kind?]

/-- A group of a kind is open if the draft has one. -/
theorem isInside_iff (h : state.Follows draft) (kind : K) :
    state.isInside kind ↔ ∃ level ∈ draft.zipper.outer, level.label.role = .group kind := by
  have hroles := h.spine.roles
  rw [isInside, h.inStep.isInside_iff, List.mem_map]
  constructor
  · rintro ⟨group, hgroup, rfl⟩
    have hmem : Role.group group.1 ∈ draft.zipper.outer.map (·.label.role) := by
      rw [hroles]
      exact List.mem_map_of_mem hgroup
    exact List.mem_map.1 hmem
  · rintro ⟨level, hlevel, hrole⟩
    have hmem : Role.group kind ∈ state.nesting.stack.map fun group => .group group.1 := by
      rw [← hroles, ← hrole]
      exact List.mem_map_of_mem hlevel
    obtain ⟨group, hgroup, heq⟩ := List.mem_map.1 hmem
    exact ⟨group, hgroup, Role.group.inj heq⟩

/-- Everything but the text and the place may change after a piece of text was read, as long as it
follows the next draft. -/
theorem next (h : state.Follows draft) {text rest : List Char}
    (split : state.remaining = text ++ rest) {draft' : Draft K} {nesting : Nesting K}
    {arena : Arena K} {diagnostics : Array Diagnostic} {last : Option NodeId}
    (inStep : nesting.InStep)
    (spine : arena.Spine draft'.zipper.outer nesting.stack draft'.zipper.inner [] arena.size)
    (notes : diagnostics = draft'.notes) :
    state.Next text rest draft'
      { state.past text rest split with
        nesting := nesting
        arena := arena
        diagnostics := diagnostics
        last := last } := by
  have hconsumed := state.past_consumed text rest split
  refine ⟨⟨inStep, spine, notes, ?_⟩, rfl, rfl, hconsumed⟩
  have hplace : state.location.advance text = Location.start.advance (state.consumed ++ text) := by
    rw [h.location, Location.advance_append]
  exact hplace.trans (congrArg _ hconsumed.symm)

end Follows

/-! ## Operations right after a piece of text was read -/

section Operations

variable {state : ParseState K} {draft : Draft K} {text rest : List Char}

omit [DecidableEq K] in
theorem eat?_of_none {rule : Rule} (h : rule.matchHead state.remaining = none) :
    state.eat? rule = some (none, state) := by
  rw [eat?, h]

omit [DecidableEq K] in
theorem eat?_of_some {rule : Rule} {found : RuleMatch} (split : state.remaining = text ++ rest)
    (h : rule.matchHead state.remaining = some found) (htext : found.text = String.ofList text) :
    state.eat? rule = some (some found, state.past text rest split) := by
  have hsize : found.size = byteLength text := by
    rw [RuleMatch.size, htext, utf8ByteSize_ofList]
  have hread := state.reader.advance?_append text rest split
  rw [eat?, h]
  simp only [advance?, hsize, hread, Option.map_some]
  rfl

theorem since?_past (h : state.Follows draft) (split : state.remaining = text ++ rest) :
    (state.past text rest split).reader.since? state.mark.location.offset = some text := by
  have hoffset : state.mark.location.offset = state.reader.cursor := h.offset
  rw [hoffset]
  exact state.reader.since?_after text rest split

/-- A node for the piece of text. -/
theorem node?_past (h : state.Follows draft) (split : state.remaining = text ++ rest)
    (role : Role K) :
    (state.past text rest split).node? role state.mark = some
      { role := role
        raw := String.ofList text
        span := .covering state.location text state.label
        made := some (state.past text rest split).moment } := by
  rw [node?, since?_past h split]
  rfl

omit [DecidableEq K] in
theorem appendTo?_eq (state : ParseState K) {parent : Nat} (h : parent < state.arena.size)
    (node : Node K) :
    state.appendTo? parent node = some (state.arena.size,
      { state with arena := state.arena.add parent node, last := some state.arena.size }) := by
  rw [appendTo?, Arena.append?_eq_add h]
  rfl

omit [DecidableEq K] in
/-- A node is added to the innermost open group. -/
theorem append?_eq (state : ParseState K) (h : Arena.top state.nesting.stack < state.arena.size)
    (node : Node K) :
    state.append? node = some (state.arena.size,
      { state with
        arena := state.arena.add (Arena.top state.nesting.stack) node
        last := some state.arena.size }) :=
  appendTo?_eq state h node

/-- The node of a group that is opened. -/
def groupNode (state : ParseState K) (kind : K) (start : Mark) (lead : Option String) : Node K where
  role := .group kind
  raw := ""
  lead := lead
  span := .point start.location state.label
  made := some state.moment

/-- A group is added to the innermost open group, and its opening token to the group. -/
theorem openGroup?_eq (state : ParseState K) (h : Arena.top state.nesting.stack < state.arena.size)
    {kind : K} {start : Mark} {first : Node K} (hfirst : state.node? (.opening kind) start = some first)
    (lead : Option String) :
    let arena := state.arena.add (Arena.top state.nesting.stack) (state.groupNode kind start lead)
    state.openGroup? kind start lead = some (state.arena.size,
      { state with
        nesting := state.nesting.push kind state.arena.size
        arena := arena.add state.arena.size first
        last := some arena.size }) := by
  intro arena
  let state' : ParseState K := { state with arena := arena, last := some state.arena.size }
  have hgroup : state.append? (state.groupNode kind start lead) = some (state.arena.size, state') :=
    append?_eq state h _
  have hnode : state'.node? (.opening kind) start = some first := hfirst
  have hlt : state.arena.size < state'.arena.size := by
    rw [Arena.size_add]
    exact Nat.lt_succ_self _
  have hadd := appendTo?_eq state' hlt first
  rw [groupNode] at hgroup
  rw [openGroup?, hgroup]
  simp only [bind, Option.bind_some, hnode, hadd]
  rfl

/-- A closing token is added to the innermost open group, which is then no longer open. -/
theorem closeGroup?_eq (state : ParseState K) {kind : K} {id : Nat} {stack : List (K × NodeId)}
    (hstack : state.nesting.stack = (kind, id) :: stack) (h : id < state.arena.size) {start : Mark}
    {last : Node K} (hlast : state.node? (.closing kind) start = some last)
    (trail : Option String) :
    state.closeGroup? kind start trail = some (.ok state.arena.size,
      { state with
        nesting := ⟨stack, Nesting.alterKind kind List.tail state.nesting.byKind⟩
        arena := state.arena.add id { last with trail := trail }
        last := some state.arena.size }) := by
  let nesting : Nesting K := ⟨stack, Nesting.alterKind kind List.tail state.nesting.byKind⟩
  let state' : ParseState K := { state with nesting := nesting }
  have hpop : state.nesting.pop kind = .ok (id, nesting) := Nesting.pop_cons hstack
  have hnode : state'.node? (.closing kind) start = some last := hlast
  have hadd := appendTo?_eq state' h { last with trail := trail }
  rw [closeGroup?, hpop]
  show (state'.node? (.closing kind) start).bind _ = _
  rw [hnode, Option.bind_some]
  show (state'.appendTo? id _).bind _ = _
  rw [hadd]
  rfl

/-- **A token is added to the draft.** -/
theorem push?_past (h : state.Follows draft) (split : state.remaining = text ++ rest) (kind : K) :
    ∃ id state', (state.past text rest split).push? kind state.mark = some (id, state') ∧
      state.Next text rest
        { draft with
          zipper := draft.zipper.add
            (Draft.entryOf (.token kind) text state.location state.label) } state' := by
  rw [push?, node?_past h split]
  refine ⟨_, _, append?_eq (state.past text rest split) h.top_lt_size _, ?_⟩
  refine h.next split h.inStep ?_ h.notes
  rw [Arena.size_add]
  exact h.spine.addLeaf _

/-- **A group is opened in the draft.** -/
theorem openGroup?_past (h : state.Follows draft) (split : state.remaining = text ++ rest)
    (kind : K) (lead : Option String) :
    ∃ id state', (state.past text rest split).openGroup? kind state.mark lead = some (id, state') ∧
      state.Next text rest
        { draft with
          zipper := (draft.zipper.descend (Draft.groupOf kind lead state.location state.label)).add
            (Draft.entryOf (.opening kind) text state.location state.label) } state' := by
  have hfirst := node?_past h split (.opening kind)
  refine ⟨_, _, openGroup?_eq (state.past text rest split) h.top_lt_size hfirst lead, ?_⟩
  refine h.next split (h.inStep.push kind _) ?_ h.notes
  rw [Arena.size_add, Arena.size_add]
  exact h.spine.openGroup rfl _

/-- **The innermost group is closed in the draft if it is of the right kind.** -/
theorem closeGroup?_past (h : state.Follows draft) (split : state.remaining = text ++ rest)
    {kind : K} (hkind : draft.innermost? = some kind) (trail : Option String) :
    ∃ id state', (state.past text rest split).closeGroup? kind state.mark trail =
        some (.ok id, state') ∧
      state.Next text rest
        { draft with
          zipper := (draft.zipper.add { Draft.entryOf (.closing kind) text state.location state.label
            with trail := trail }).ascend } state' := by
  obtain ⟨⟨group, id⟩, hhead, rfl⟩ := Option.map_eq_some_iff.1 (h.innermost?.symm.trans hkind)
  obtain ⟨stack, hstack⟩ : ∃ stack, state.nesting.stack = (group, id) :: stack :=
    List.head?_eq_some_iff.1 hhead
  have htop : Arena.top state.nesting.stack = id := by
    rw [hstack]
    rfl
  have hlt : id < state.arena.size := htop ▸ h.top_lt_size
  have hlast := node?_past h split (.closing group)
  refine ⟨_, _, closeGroup?_eq (state.past text rest split) hstack hlt hlast trail, ?_⟩
  refine h.next split (h.inStep.pop hstack) ?_ h.notes
  obtain ⟨⟨outer, inner⟩, notes⟩ := draft
  have hspine := h.spine
  rw [hstack] at hspine
  cases outer with
  | nil => cases hspine
  | cons level outer =>
    rw [Arena.size_add]
    exact (hspine.addLeaf _).close

/-- Otherwise the piece of text is an error. -/
theorem closeGroup?_past_of_ne (h : state.Follows draft) (split : state.remaining = text ++ rest)
    {kind : K} (hkind : draft.innermost? ≠ some kind) (trail : Option String) :
    (state.past text rest split).closeGroup? kind state.mark trail =
      some (.error (.at (.unbalancedClose kind (String.ofList text) draft.innermost?) state.label
        state.location), state.past text rest split) := by
  have hinner := h.innermost?
  rw [closeGroup?]
  cases hstack : state.nesting.stack with
  | nil =>
    have hpop : (state.past text rest split).nesting.pop kind = .error .nothingOpen := by
      show state.nesting.pop kind = _
      rw [Nesting.pop, hstack]
    rw [Nesting.innermost?, hstack] at hinner
    rw [hpop, hinner]
    simp only [since?_past h split, bind, Option.bind_some]
    rfl
  | cons group stack =>
    obtain ⟨innermost, id⟩ := group
    rw [Nesting.innermost?, hstack] at hinner
    have hne : innermost ≠ kind := fun heq => hkind (heq ▸ hinner)
    have hpop : (state.past text rest split).nesting.pop kind = .error (.interleaved innermost) := by
      show state.nesting.pop kind = _
      rw [Nesting.pop, hstack]
      exact if_neg hne
    rw [hpop, hinner]
    simp only [since?_past h split, bind, Option.bind_some]
    rfl

omit [DecidableEq K] in
theorem report_collect (state : ParseState K) (mode : state.options.errorMode = .collect)
    (message : String) :
    state.report message = (.ok (),
      { state with
        diagnostics := state.diagnostics.push ⟨message, state.location, state.label⟩ }) := by
  rw [report, mode]

omit [DecidableEq K] in
theorem report_throw (state : ParseState K) (mode : state.options.errorMode = .throw)
    (message : String) :
    state.report message = (.error (state.error (.diagnostic message)), state) := by
  rw [report, mode]

end Operations

end ParseState

end GlobTree
