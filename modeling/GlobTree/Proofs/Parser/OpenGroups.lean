import GlobTree.Proofs.Parser.History
import GlobTree.Proofs.Parser.Table
import GlobTree.Proofs.Tree.Order
/-!
# The open groups of a parse

The groups that are open are the right edge of the tree: the outermost is the last child of the root,
each of the others the last child of the one around it, and each starts with its opening token
(`Arena.Chain`). Nodes are numbered in the order of the document, so that the one that was added last
has the greatest number.

That is so whatever the handlers do. A state is `Sound` if it follows some draft whose open groups
start with their opening tokens, and every operation keeps it so (`ParseState.kept_sound`).
-/

namespace GlobTree

variable {K M : Type}

/-! ## The right edge of a tree -/

namespace Arena

/-- Groups, the innermost first, of which each is the last child of the next one, and the outermost
of the root. Every group starts with its opening token. -/
def Chain (arena : Arena K) : List (K × NodeId) → Prop
  | [] => True
  | (kind, id) :: outer =>
    (∃ group first opening, arena.node? id = some group ∧ group.role = .group kind ∧
      group.parent = some (top outer) ∧ arena.lastChild? (top outer) = some (some id) ∧
      arena.firstChild? id = some (some first) ∧ arena.node? first = some opening ∧
      opening.role = .opening kind) ∧
    arena.Chain outer

/-- The groups around a place start with their opening tokens. -/
def OpensAround : List (Level (Entry K)) → Forest (Entry K) → Prop
  | [], _ => True
  | level :: outer, inner =>
    (∃ kind, level.label.role = .group kind ∧
      inner.roots.head?.map (·.role) = some (.opening kind)) ∧
    OpensAround outer level.before

/-- What comes later does not change how a group starts. -/
theorem OpensAround.append {outer : List (Level (Entry K))} {inner : Forest (Entry K)}
    (h : OpensAround outer inner) (more : Forest (Entry K)) : OpensAround outer (inner ++ more) := by
  cases outer with
  | nil => trivial
  | cons level outer =>
    obtain ⟨⟨kind, hkind, hfirst⟩, houter⟩ := h
    obtain ⟨first, hhead, hrole⟩ := Option.map_eq_some_iff.1 hfirst
    refine ⟨⟨kind, hkind, ?_⟩, houter⟩
    rw [Forest.roots_append, List.head?_append, hhead]
    exact congrArg some hrole

variable {arena : Arena K} {outer : List (Level (Entry K))} {stack : List (K × NodeId)}
  {inner : Forest (Entry K)} {tail : List NodeId} {id next : Nat}

/-- What the tail of a spine ends with is the last child of the innermost group. -/
theorem Spine.lastChild?_top (h : arena.Spine outer stack inner [id] next) :
    arena.lastChild? (top stack) = some (some id) := by
  obtain ⟨⟨parent, label, ⟨node, hnode, -, -, hchildren⟩, -⟩, -⟩ := h.holds_top
  rw [lastChild?, children?, hnode, Option.map_some, Option.map_some, ← Array.getLast?_toList,
    hchildren, List.getLast?_concat]

/-- A node whose first child has a role. -/
theorem Holds.exists_first {parent : Option NodeId} {label : Entry K} {role : Role K}
    (h : arena.Holds id parent label inner tail)
    (hfirst : inner.roots.head?.map (·.role) = some role) :
    ∃ first node, arena.firstChild? id = some (some first) ∧ arena.node? first = some node ∧
      node.role = role := by
  obtain ⟨⟨above, habove, -, -, hchildren⟩, hlaid⟩ := h
  cases inner with
  | nil => cases hfirst
  | cons entry below rest =>
    obtain ⟨⟨node, hnode, rfl, -, -⟩, -, -⟩ := hlaid
    refine ⟨id + 1, node, ?_, hnode, Option.some.inj hfirst⟩
    rw [firstChild?, children?, habove, Option.map_some, Option.map_some, ← Array.getElem?_toList,
      hchildren]
    rfl

/-- **The open groups of a spine are its right edge.** -/
theorem Spine.chain (h : arena.Spine outer stack inner tail next) (opens : OpensAround outer inner) :
    arena.Chain stack := by
  induction h with
  | root => trivial
  | @group level outer kind id stack inner tail role holds below ih =>
    obtain ⟨⟨other, hother, hfirst⟩, houter⟩ := opens
    obtain rfl : other = kind := Role.group.inj (hother.symm.trans role)
    obtain ⟨first, opening, hchild, hopening, hrole⟩ := holds.exists_first hfirst
    obtain ⟨⟨group, hgroup, hentry, hparent, -⟩, -⟩ := holds
    have hgrouprole : group.role = .group other := (congrArg Entry.role hentry).trans role
    exact ⟨⟨group, first, opening, hgroup, hgrouprole, hparent, below.lastChild?_top, hchild,
      hopening, hrole⟩, ih houter⟩

/-- **The nodes of a spine are in the order of their numbers.** -/
theorem Spine.order_eq_range' (h : arena.Spine outer stack inner [] arena.size) :
    arena.order = List.range' 1 (arena.size - 1) := by
  obtain ⟨_, -, -, -, -, hsize⟩ := h.closeAll.exists_root
  rw [h.closeAll.order_eq, hsize, Nat.add_sub_cancel_left]

end Arena

/-! ## Sound states -/

namespace ParseState

/-- A state follows some draft, in which the open groups start with their opening tokens, and the
node that was added last is the one with the greatest number. -/
structure Sound [DecidableEq K] (state : ParseState K) : Prop where
  follows : ∃ draft : Draft K, state.Follows draft ∧
    Arena.OpensAround draft.zipper.outer draft.zipper.inner
  last : state.last = if state.arena.size = 1 then none else some (state.arena.size - 1)

variable [DecidableEq K] {state next : ParseState K}

theorem sound_fresh (options : ParserOptions) : (fresh options : ParseState K).Sound :=
  ⟨⟨{}, follows_fresh options, trivial⟩, rfl⟩

theorem Sound.feed (h : state.Sound) (chunk : List Char) : (state.feed chunk).Sound := by
  obtain ⟨⟨draft, hfollows, hopens⟩, hlast⟩ := h
  exact ⟨⟨draft, hfollows.feed chunk, hopens⟩, hlast⟩

theorem Sound.past (h : state.Sound) (text rest : List Char)
    (split : state.remaining = text ++ rest) : (state.past text rest split).Sound := by
  obtain ⟨⟨draft, hfollows, hopens⟩, hlast⟩ := h
  have hnext : state.Next text rest draft (state.past text rest split) :=
    hfollows.next split hfollows.inStep hfollows.spine hfollows.notes
  exact ⟨⟨draft, hnext.follows, hopens⟩, hlast⟩

omit [DecidableEq K] in
/-- The node that was just added has the greatest number. -/
theorem last_of_add {arena : Arena K} {parent : Nat} (h : parent < arena.size) (node : Node K) :
    some arena.size = if (arena.add parent node).size = 1 then none
      else some ((arena.add parent node).size - 1) := by
  rw [Arena.size_add, if_neg (by omega), Nat.add_sub_cancel]

/-! ### What handlers do to a sound state -/

theorem Sound.append? (h : state.Sound) {node : Node K} {id : NodeId}
    (happend : state.append? node = some (id, next)) : next.Sound := by
  obtain ⟨⟨draft, hfollows, hopens⟩, -⟩ := h
  cases happend.symm.trans (append?_eq state hfollows.top_lt_size node)
  refine ⟨⟨{ draft with zipper := draft.zipper.add node.entry },
    ⟨hfollows.inStep, ?_, hfollows.notes, hfollows.location⟩, hopens.append _⟩,
    last_of_add hfollows.top_lt_size node⟩
  have hspine := hfollows.spine.addLeaf node
  rwa [← Arena.size_add state.arena (Arena.top state.nesting.stack) node] at hspine

omit [DecidableEq K] in
/-- A node has the role that it is made for. -/
theorem role_of_node? {role : Role K} {start : Mark} {node : Node K}
    (h : state.node? role start = some node) : node.role = role := by
  obtain ⟨raw, -, rfl⟩ := Option.map_eq_some_iff.1 h
  rfl

/-- A group is opened only if there is a text for its opening token. -/
theorem exists_node?_of_openGroup? {kind : K} {start : Mark} {lead : Option String} {id : NodeId}
    (h : state.openGroup? kind start lead = some (id, next)) :
    ∃ first, state.node? (.opening kind) start = some first := by
  obtain ⟨⟨group, outside⟩, hgroup, h⟩ := Option.bind_eq_some_iff.1 h
  obtain ⟨first, hfirst, -⟩ := Option.bind_eq_some_iff.1 h
  have hsame := appendTo?_samePlace hgroup
  have hnode : outside.node? (.opening kind) start = state.node? (.opening kind) start := by
    rw [node?, node?, label, label, moment, moment, cursor, cursor, hsame.options, hsame.reader,
      hsame.location]
  exact ⟨first, hnode ▸ hfirst⟩

theorem Sound.openGroup? (h : state.Sound) {kind : K} {start : Mark} {lead : Option String}
    {id : NodeId} (hopen : state.openGroup? kind start lead = some (id, next)) : next.Sound := by
  obtain ⟨⟨draft, hfollows, hopens⟩, -⟩ := h
  obtain ⟨first, hfirst⟩ := exists_node?_of_openGroup? hopen
  have hrole : first.role = .opening kind := role_of_node? hfirst
  let group := state.groupNode kind start lead
  let arena := state.arena.add (Arena.top state.nesting.stack) group
  have hlt : state.arena.size < arena.size := by
    rw [Arena.size_add]
    exact Nat.lt_succ_self _
  cases hopen.symm.trans (openGroup?_eq state hfollows.top_lt_size hfirst lead)
  refine ⟨⟨{ draft with zipper := (draft.zipper.descend group.entry).add first.entry },
    ⟨hfollows.inStep.push kind _, ?_, hfollows.notes, hfollows.location⟩, ?_⟩, ?_⟩
  · have hspine := hfollows.spine.openGroup (show group.role = .group kind from rfl) first
    rwa [← Arena.size_add state.arena (Arena.top state.nesting.stack) group,
      ← Arena.size_add arena state.arena.size first] at hspine
  · exact ⟨⟨kind, rfl, congrArg some hrole⟩, hopens⟩
  · exact last_of_add hlt first

/-- What closing a group does: nothing but to say what is wrong, or the innermost group gets its
closing token. -/
theorem Sound.closeGroup? (h : state.Sound) {kind : K} {start : Mark} {trail : Option String}
    {result : Except (ParseError K) NodeId}
    (hclose : state.closeGroup? kind start trail = some (result, next)) : next.Sound := by
  cases hpop : state.nesting.pop kind with
  | error mismatch =>
    rw [ParseState.closeGroup?, hpop] at hclose
    obtain ⟨raw, -, hclose⟩ := Option.bind_eq_some_iff.1 hclose
    cases hclose
    exact h
  | ok popped =>
    obtain ⟨⟨⟨⟨outer, inner⟩, notes⟩, hfollows, hopens⟩, -⟩ := h
    obtain ⟨id, nesting⟩ := popped
    obtain ⟨stack, hstack⟩ := Nesting.exists_of_pop hpop
    obtain ⟨last, hlast⟩ : ∃ last, state.node? (.closing kind) start = some last := by
      rw [ParseState.closeGroup?, hpop] at hclose
      obtain ⟨last, hlast, -⟩ := Option.bind_eq_some_iff.1 hclose
      exact ⟨last, hlast⟩
    have htop : Arena.top state.nesting.stack = id := by
      rw [hstack]
      rfl
    have hlt : id < state.arena.size := htop ▸ hfollows.top_lt_size
    have hspine := hfollows.spine
    rw [hstack] at hspine
    cases hclose.symm.trans (closeGroup?_eq state hstack hlt hlast trail)
    cases outer with
    | nil => cases hspine
    | cons level outer =>
      let closing : Node K := { last with trail := trail }
      refine ⟨⟨⟨⟨outer, level.close (inner ++ .leaf closing.entry)⟩, notes⟩,
        ⟨hfollows.inStep.pop hstack, ?_, hfollows.notes, hfollows.location⟩,
        hopens.2.append _⟩, last_of_add hlt closing⟩
      have hclosed := (hspine.addLeaf closing).close
      rwa [← Arena.size_add state.arena id closing] at hclosed

theorem Sound.report (h : state.Sound) (message : String) : (state.report message).2.Sound := by
  obtain ⟨⟨draft, hfollows, hopens⟩, hlast⟩ := h
  cases hmode : state.options.errorMode with
  | collect =>
    let note : Diagnostic := ⟨message, state.location, state.label⟩
    have hnotes : state.diagnostics.push note = draft.notes.push note := by rw [hfollows.notes]
    rw [report_collect state hmode]
    exact ⟨⟨{ draft with notes := draft.notes.push note },
      ⟨hfollows.inStep, hfollows.spine, hnotes, hfollows.location⟩, hopens⟩, hlast⟩
  | throw =>
    rw [report_throw state hmode]
    exact ⟨⟨draft, hfollows, hopens⟩, hlast⟩

/-- **Whatever handlers do, a sound state stays sound.** -/
theorem kept_sound : Kept (Sound : ParseState K → Prop) where
  eat h heat := by
    rcases exists_of_eat? heat with rfl | ⟨text, rest, split, rfl⟩
    · exact h
    · exact h.past text rest split
  append h happend := h.append? happend
  openGroup h hopen := h.openGroup? hopen
  closeGroup h hclose := h.closeGroup? hclose
  report message h := h.report message

theorem Sound.chain (h : state.Sound) : state.arena.Chain state.nesting.stack := by
  obtain ⟨⟨draft, hfollows, hopens⟩, -⟩ := h
  exact hfollows.spine.chain hopens

theorem Sound.order_eq (h : state.Sound) :
    state.arena.order = List.range' 1 (state.arena.size - 1) := by
  obtain ⟨⟨draft, hfollows, -⟩, -⟩ := h
  exact hfollows.spine.order_eq_range'

end ParseState

/-! ## After any calls -/

namespace Parser

variable [DecidableEq K]

/-- **The state of a parser is sound after any calls.** -/
theorem sound_calls (handlers : List (Handler K M)) (options : ParserOptions) (memory : M)
    (calls : List Call) : ((ofHandlers handlers options memory).calls calls).2.state.Sound :=
  calls_ofHandlers_kept ParseState.kept_sound ParseState.sound_fresh (fun _ chunk h => h.feed chunk)
    handlers options memory calls

omit [DecidableEq K] in
theorem finishState_of_finish {parser : Parser K M} {document : Document K}
    (h : parser.finish.1 = .ok document) : finishState parser.state = .ok document := by
  rcases parser.finish_cases with ⟨other, hstate, hfinish⟩ | ⟨stop, poisoned, hfinish⟩
  · rw [hfinish] at h
    cases h
    exact hstate
  · rw [hfinish] at h
    cases h

/-- The nodes of a document are in the order of their numbers. -/
theorem order_of_finish {parser : Parser K M} (sound : parser.state.Sound) {document : Document K}
    (h : parser.finish.1 = .ok document) :
    document.order = List.range' 1 (document.size - 1) := by
  obtain ⟨⟨draft, hfollows, -⟩, -⟩ := sound
  have hfinish := finishState_of_follows hfollows
  have hstate := finishState_of_finish h
  cases hresult : draft.finish parser.state.options parser.state.location with
  | error error =>
    rw [hresult] at hfinish
    cases hstate.symm.trans hfinish
  | ok forest =>
    rw [hresult] at hfinish
    obtain ⟨other, hother, hsays⟩ := hfinish
    obtain rfl : document = other := Except.ok.inj (hstate.symm.trans hother)
    exact hsays.spine.order_eq_range'

/-- **The open groups are the right edge of the tree**, whatever the handlers are and after any
calls. The order of the nodes is that in which they were made, the last of them was added last, and
the document that a finish hands over is in that order as well. -/
theorem chain_calls (handlers : List (Handler K M)) (options : ParserOptions) (memory : M)
    (calls : List Call) :
    let parser := ((ofHandlers handlers options memory).calls calls).2
    let document := parser.state.document
    document.Chain parser.state.nesting.stack ∧
    document.order = List.range' 1 (document.size - 1) ∧
    (parser.state.last = if document.size = 1 then none else some (document.size - 1)) ∧
    ∀ finished, parser.finish.1 = .ok finished →
      finished.order = List.range' 1 (finished.size - 1) := by
  intro parser document
  have hsound := sound_calls handlers options memory calls
  exact ⟨hsound.chain, hsound.order_eq, hsound.last, fun _ h => order_of_finish hsound h⟩

/-- Before every piece of text a handler opens a group without reading anything, and adds a node
that looks like a group. None of the groups is closed. -/
theorem chain_calls_unread :
    let handlers : List (Handler Extglob.Kind Unit) := [
      .middleware <| .look fun state => .openGroup .paren state.mark none fun _ =>
        .append { role := .group .brace, raw := "", span := .point .start "" } fun _ => .pure (),
      .capture .text Extglob.textRule]
    let calls := [.feed "aé", .feed "b"]
    ((ofHandlers handlers {} ()).calls calls).2.state.nesting.depth = 2 ∧
    ∃ finished, ((ofHandlers handlers {} ()).calls calls).2.finish.1 = .ok finished ∧
      finished.order = List.range' 1 (finished.size - 1) := by
  intro handlers calls
  obtain ⟨-, -, -, hfinished⟩ := chain_calls handlers {} () calls
  have hdepth : ((ofHandlers handlers {} ()).calls calls).2.state.nesting.depth = 2 := by
    decide +kernel
  have hok : ((ofHandlers handlers {} ()).calls calls).2.finish.1.isOk = true := by decide +kernel
  obtain ⟨finished, h⟩ := exists_of_isOk hok
  exact ⟨hdepth, finished, h, hfinished finished h⟩

end Parser

end GlobTree
