import GlobTree.Proofs.Parser.Marks
import GlobTree.Proofs.Parser.Priority
import GlobTree.Proofs.Tree.Appending
/-!
# What nodes remember of the text

A node has the place where it starts, and the numbers of bytes that had been read and that had come
when it was made. With its own text (`Arena.ownText?`) these tell the text before it, its own text
and the text that was left when it was made. `Arena.Recalls` says so of a node with the three parts.

* What a node remembers stays so when others are added (`Arena.Recalls.append?`), and a document
  whose source begins with the three parts answers with them (`Document.consumedBefore?_eq`,
  `Document.remainingAfter?_eq`).
* A node that is made with a mark remembers the text (`ParseState.Marks.exists_remembers`), and so
  do all nodes that handlers with rules make (`Handler.recalls_run`).
-/

namespace GlobTree

variable {K M : Type}

/-! ## What a node remembers -/

/-- The roles of opening tokens. -/
def Role.isOpening : Role K → Bool
  | opening _ => true
  | _ => false

/-- The text that was read for a node. That of a group is the text of its opening token. -/
def Arena.ownText? (arena : Arena K) (id : NodeId) : Option String := do
  let node ← arena.node? id
  match node.role with
  | .group _ =>
    let children := node.children.toList.filterMap arena.node?
    (children.find? (·.role.isOpening)).map (·.raw)
  | _ => return node.raw

/-- A node remembers how far the text was read before its own text and up to its end, and how much
text there was. -/
structure Node.Remembers (node : Node K) (before own after : List Char) : Prop where
  start : node.span.start.offset = byteLength before
  stop : node.span.stop.offset ≤ byteLength (before ++ own)
  made : node.made = some ⟨byteLength (before ++ own), byteLength (before ++ own ++ after)⟩

namespace Arena

/-- A text is a node's own. The opening token of a group is its first child. -/
def Owns (arena : Arena K) (node : Node K) (own : List Char) : Prop :=
  match node.role with
  | .group _ => ∃ first opening, node.children[0]? = some first ∧
    arena.node? first = some opening ∧ opening.role.isOpening = true ∧
    opening.raw = String.ofList own
  | _ => node.raw = String.ofList own

/-- When a node was made, the text was `before`, `own` and `after`, of which `own` is its own and
`after` was left to read. -/
def Recalls (arena : Arena K) (id : NodeId) (before own after : List Char) : Prop :=
  ∃ node, arena.node? id = some node ∧ node.Remembers before own after ∧ arena.Owns node own

variable {arena next : Arena K} {id parent new : NodeId} {before own after : List Char}

/-- A node keeps what it has when another one is added, which may become its last child. -/
theorem exists_node?_of_append? {node added : Node K}
    (h : arena.append? parent added = some (new, next)) (hnode : arena.node? id = some node) :
    ∃ more, next.node? id = some { node with children := node.children ++ more } := by
  obtain ⟨-, -, rfl⟩ := append?_eq_some_iff.1 h
  have hne : id ≠ arena.size := Nat.ne_of_lt (lt_size_of_node? hnode)
  rw [node?_add, if_neg hne, hnode, Option.map_some]
  split
  · exact ⟨#[arena.size], rfl⟩
  · exact ⟨#[], by rw [Array.append_empty]⟩

theorem Owns.append? {node added : Node K} (h : arena.Owns node own)
    (happend : arena.append? parent added = some (new, next)) (more : Array NodeId) :
    next.Owns { node with children := node.children ++ more } own := by
  cases hrole : node.role with
  | group kind =>
    simp only [Owns, hrole] at h ⊢
    obtain ⟨first, opening, hfirst, hopening, hrole, hraw⟩ := h
    obtain ⟨below, hbelow⟩ := exists_node?_of_append? happend hopening
    refine ⟨first, _, ?_, hbelow, hrole, hraw⟩
    rw [Array.getElem?_append_left (Array.getElem?_eq_some_iff.1 hfirst).1]
    exact hfirst
  | _ =>
    simp only [Owns, hrole] at h ⊢
    exact h

/-- **What a node remembers stays so.** -/
theorem Recalls.append? {added : Node K} (h : arena.Recalls id before own after)
    (happend : arena.append? parent added = some (new, next)) :
    next.Recalls id before own after := by
  obtain ⟨node, hnode, ⟨hstart, hstop, hmade⟩, hown⟩ := h
  obtain ⟨more, hmore⟩ := exists_node?_of_append? happend hnode
  exact ⟨_, hmore, ⟨hstart, hstop, hmade⟩, hown.append? happend more⟩

theorem Recalls.ownText?_eq (h : arena.Recalls id before own after) :
    arena.ownText? id = some (String.ofList own) := by
  obtain ⟨node, hnode, -, hown⟩ := h
  rw [ownText?, hnode]
  cases hrole : node.role with
  | group kind =>
    simp only [Owns, hrole] at hown
    obtain ⟨first, opening, hfirst, hopening, hisOpening, hraw⟩ := hown
    rw [← Array.getElem?_toList] at hfirst
    obtain ⟨rest, hrest⟩ : ∃ rest, node.children.toList = first :: rest :=
      List.head?_eq_some_iff.1 (List.head?_eq_getElem?.trans hfirst)
    simp only [bind, Option.bind_some, hrole, hrest, List.filterMap_cons, hopening,
      List.find?_cons, hisOpening, Option.map_some, hraw]
  | _ =>
    simp only [Owns, hrole] at hown
    simp only [bind, Option.bind_some, hrole, hown]
    rfl

end Arena

namespace Document

variable {document : Document K} {id : NodeId} {node : Node K} {before own after more : List Char}

/-- The text that was read before a node. -/
theorem consumedBefore?_eq (hnode : document.node? id = some node)
    (h : node.Remembers before own after)
    (hsource : document.source.toList = before ++ (own ++ (after ++ more))) :
    document.consumedBefore? id = some (String.ofList before) := by
  have hsize : document.source.utf8ByteSize = byteLength (before ++ (own ++ (after ++ more))) := by
    rw [← hsource, byteLength_toList]
  have hmin : min node.span.start.offset document.source.utf8ByteSize =
      byteLength [] + byteLength before := by
    rw [hsize, h.start, byteLength_append, byteLength_nil]
    omega
  have hslice := sliceBytes?_append [] before (own ++ (after ++ more))
  rw [consumedBefore?, hnode]
  show document.slice? 0 (min node.span.start.offset document.source.utf8ByteSize) = _
  rw [hmin, slice?, hsource]
  exact congrArg (Option.map String.ofList) hslice

/-- The text that was left to read when a node was made. -/
theorem remainingAfter?_eq (hnode : document.node? id = some node)
    (h : node.Remembers before own after)
    (hsource : document.source.toList = before ++ (own ++ (after ++ more))) :
    document.remainingAfter? id = some (String.ofList after) := by
  have hsize : document.source.utf8ByteSize = byteLength (before ++ (own ++ (after ++ more))) := by
    rw [← hsource, byteLength_toList]
  have hsplit : document.source.toList = (before ++ own) ++ (after ++ more) := by
    rw [hsource, List.append_assoc]
  have hslice := sliceBytes?_append (before ++ own) after more
  obtain ⟨-, hstop, hmade⟩ := h
  have hstart : min (max (byteLength (before ++ own))
      (min node.span.stop.offset document.source.utf8ByteSize)) document.source.utf8ByteSize =
        byteLength (before ++ own) := by
    simp only [byteLength_append] at hsize hstop ⊢
    omega
  have hend : max (min (byteLength (before ++ own ++ after)) document.source.utf8ByteSize)
      (byteLength (before ++ own)) = byteLength (before ++ own) + byteLength after := by
    simp only [byteLength_append] at hsize ⊢
    omega
  simp only [remainingAfter?, hnode, hmade, bind, Option.bind_some, hstart, hend, slice?, hsplit,
    hslice, Option.map_some]

end Document

/-! ## States whose nodes remember the text -/

/-- All nodes from a number on were made when the text was `whole`. -/
def Arena.RecallsFrom (arena : Arena K) (first : NodeId) (whole : List Char) : Prop :=
  ∀ id, first ≤ id → id < arena.size →
    ∃ before own after, before ++ (own ++ after) = whole ∧ arena.Recalls id before own after

/-- A node that remembers the text is added. -/
theorem Arena.RecallsFrom.append? {arena next : Arena K} {first parent new : NodeId}
    {whole before own after : List Char} {added : Node K} (h : arena.RecallsFrom first whole)
    (happend : arena.append? parent added = some (new, next))
    (htext : before ++ (own ++ after) = whole) (hnew : next.Recalls new before own after) :
    next.RecallsFrom first whole := by
  intro id hfirst hid
  obtain ⟨-, rfl, hnext⟩ := append?_eq_some_iff.1 happend
  rw [hnext, size_add] at hid
  rcases Nat.lt_succ_iff_lt_or_eq.1 hid with hold | rfl
  · obtain ⟨before, own, after, htext, hrecalls⟩ := h id hfirst hold
    exact ⟨before, own, after, htext, hrecalls.append? happend⟩
  · exact ⟨before, own, after, htext, hnew⟩

namespace ParseState

variable [DecidableEq K]

/-- A sound state with a text, in which all nodes from a number on were made with that text. -/
structure Recalls (first : NodeId) (whole : List Char) (state : ParseState K) : Prop where
  sound : state.Sound
  text : state.reader.text = whole
  nodes : state.arena.RecallsFrom first whole

variable {state next : ParseState K} {first : NodeId} {whole : List Char} {start : Mark}

/-- Reading leads on in the same text, and the place before is a mark. -/
theorem Recalls.eat? (h : state.Recalls first whole) {rule : Rule} {found : Option RuleMatch}
    (heat : state.eat? rule = some (found, next)) :
    next.Recalls first whole ∧ next.Marks state.mark := by
  have hsound := kept_sound.eat h.sound heat
  have hplace := h.sound.location_eq
  rcases exists_of_eat? heat with rfl | ⟨text, rest, split, rfl⟩
  · exact ⟨h, _, [], (List.append_nil _).symm, hplace⟩
  · refine ⟨⟨hsound, ?_, h.nodes⟩, state.consumed, text, past_consumed .., hplace⟩
    rw [← h.text]
    show (state.past text rest split).consumed ++ rest = state.consumed ++ state.remaining
    rw [past_consumed, split, List.append_assoc]

theorem Recalls.report (h : state.Recalls first whole) (message : String) :
    (state.report message).2.Recalls first whole := by
  refine ⟨kept_sound.report message h.sound, ?_, ?_⟩
  · rw [(report_samePlace state message).reader]
    exact h.text
  · rw [ParseState.report]
    split <;> exact h.nodes

omit [DecidableEq K] in
/-- The moment reached in terms of the text. -/
theorem moment_eq (state : ParseState K) : state.moment =
    ⟨byteLength state.consumed, byteLength (state.consumed ++ state.remaining)⟩ := by
  have hleft : state.reader.left = byteLength state.remaining := state.reader.left_eq
  have hread : state.reader.cursor = byteLength state.consumed :=
    state.reader.cursor_eq_byteLength_consumed
  rw [moment, cursor, Reader.size, hread, hleft, byteLength_append]

/-- **Nodes that are made with a mark** remember the text. -/
theorem Marks.exists_remembers (hmarks : state.Marks start) (h : state.Sound) :
    ∃ before own after, before ++ (own ++ after) = state.reader.text ∧
      (∀ role, ∃ node, state.node? role start = some node ∧ node.role = role ∧
        node.raw = String.ofList own ∧ node.Remembers before own after) ∧
      ∀ kind lead, (state.groupNode kind start lead).Remembers before own after := by
  obtain ⟨before, own, split, hstart⟩ := hmarks
  have hcursor : state.cursor = byteLength (before ++ own) := by
    rw [← split]
    exact state.reader.cursor_eq_byteLength_consumed
  have hoffset : start.location.offset = byteLength before := by
    rw [hstart, Location.advance_offset, Location.start_offset, Nat.zero_add]
  have hmoment : state.moment =
      ⟨byteLength (before ++ own), byteLength (before ++ own ++ state.remaining)⟩ := by
    rw [moment_eq, ← split]
  have hstop : state.location.offset = byteLength (before ++ own) := by
    rw [h.offset_eq, hcursor]
  refine ⟨before, own, state.remaining, ?_, fun role => ?_, fun kind lead => ⟨hoffset, ?_, ?_⟩⟩
  · rw [← List.append_assoc, ← split]
    rfl
  · have hmin : byteLength before = min start.location.offset state.cursor := by
      rw [hoffset, hcursor, byteLength_append]
      omega
    exact ⟨_, node?_of_split split hmin role, rfl, rfl, hoffset, hstop.le, congrArg some hmoment⟩
  · show start.location.offset ≤ _
    rw [hoffset, byteLength_append]
    omega
  · exact congrArg some hmoment

/-- A token is added. -/
theorem Recalls.exists_push? (h : state.Recalls first whole) (hmarks : state.Marks start)
    (kind : K) : ∃ id next, state.push? kind start = some (id, next) ∧ next.Recalls first whole := by
  obtain ⟨before, own, after, htext, hnodes, -⟩ := hmarks.exists_remembers h.sound
  obtain ⟨node, hnode, hrole, hraw, hstart, hstop, hmade⟩ := hnodes (.token kind)
  obtain ⟨draft, hfollows, -⟩ := h.sound.follows
  have hlt := hfollows.top_lt_size
  have happend := append?_eq state hlt node
  have hpush : state.push? kind start = state.append? node := by
    rw [push?, hnode]
    rfl
  refine ⟨_, _, hpush.trans happend, kept_sound.append h.sound happend, h.text, ?_⟩
  refine h.nodes.append? (Arena.append?_eq_add hlt node) (htext.trans h.text) ?_
  refine ⟨_, Arena.node?_add_size hlt node, ⟨hstart, hstop, hmade⟩, ?_⟩
  simp only [Arena.Owns, hrole]
  exact hraw

/-- A group is opened. It remembers the same as its opening token. -/
theorem Recalls.exists_openGroup? (h : state.Recalls first whole) (hmarks : state.Marks start)
    (kind : K) (lead : Option String) :
    ∃ id next, state.openGroup? kind start lead = some (id, next) ∧ next.Recalls first whole := by
  obtain ⟨before, own, after, htext, hnodes, hgroups⟩ := hmarks.exists_remembers h.sound
  obtain ⟨node, hnode, hrole, hraw, hstart, hstop, hmade⟩ := hnodes (.opening kind)
  obtain ⟨hstart', hstop', hmade'⟩ := hgroups kind lead
  obtain ⟨draft, hfollows, -⟩ := h.sound.follows
  let group := state.groupNode kind start lead
  let arena := state.arena.add (Arena.top state.nesting.stack) group
  have hlt := hfollows.top_lt_size
  have hsize : arena.size = state.arena.size + 1 := Arena.size_add ..
  have hlt' : state.arena.size < arena.size := by omega
  have hgroup : (arena.add state.arena.size node).node? state.arena.size = some _ :=
    Arena.node?_add_parent (Arena.node?_add_size hlt group) node
  have hopening := Arena.node?_add_size hlt' node
  have hopen := openGroup?_eq state hlt hnode lead
  refine ⟨_, _, hopen, kept_sound.openGroup h.sound hopen, h.text, fun id hfirst hid => ?_⟩
  change id < (arena.add state.arena.size node).size at hid
  rw [Arena.size_add, hsize] at hid
  rcases Nat.lt_succ_iff_lt_or_eq.1 hid with hid | rfl
  · rcases Nat.lt_succ_iff_lt_or_eq.1 hid with hold | rfl
    · obtain ⟨before, own, after, htext, hrecalls⟩ := h.nodes id hfirst hold
      have hgrown := hrecalls.append? (Arena.append?_eq_add hlt group)
      exact ⟨before, own, after, htext, hgrown.append? (Arena.append?_eq_add hlt' node)⟩
    · refine ⟨before, own, after, htext.trans h.text, _, hgroup, ⟨hstart', hstop', hmade'⟩, ?_⟩
      refine ⟨arena.size, _, rfl, hopening, ?_, hraw⟩
      rw [hrole]
      rfl
  · rw [hsize] at hopening
    refine ⟨before, own, after, htext.trans h.text, _, hopening, ⟨hstart, hstop, hmade⟩, ?_⟩
    simp only [Arena.Owns, hrole]
    exact hraw

/-- The innermost group is closed, or there is an error and nothing changes. -/
theorem Recalls.exists_closeGroup? (h : state.Recalls first whole) (hmarks : state.Marks start)
    (kind : K) (trail : Option String) :
    ∃ result next, state.closeGroup? kind start trail = some (result, next) ∧
      next.Recalls first whole := by
  obtain ⟨before, own, after, htext, hnodes, -⟩ := hmarks.exists_remembers h.sound
  obtain ⟨node, hnode, hrole, hraw, hstart, hstop, hmade⟩ := hnodes (.closing kind)
  cases hpop : state.nesting.pop kind with
  | error mismatch =>
    obtain ⟨raw, hraw, -⟩ := Option.map_eq_some_iff.1 hnode
    rw [closeGroup?, hpop]
    simp only [hraw, bind, Option.bind_some]
    exact ⟨_, _, rfl, h⟩
  | ok popped =>
    obtain ⟨group, nesting⟩ := popped
    obtain ⟨draft, hfollows, -⟩ := h.sound.follows
    obtain ⟨stack, hstack⟩ := Nesting.exists_of_pop hpop
    have htop : Arena.top state.nesting.stack = group := by
      rw [hstack]
      rfl
    have hlt : group < state.arena.size := htop ▸ hfollows.top_lt_size
    have hclose := closeGroup?_eq state hstack hlt hnode trail
    refine ⟨_, _, hclose, kept_sound.closeGroup h.sound hclose, h.text, ?_⟩
    refine h.nodes.append? (Arena.append?_eq_add hlt _) (htext.trans h.text) ?_
    refine ⟨_, Arena.node?_add_size hlt _, ⟨hstart, hstop, hmade⟩, ?_⟩
    simp only [Arena.Owns, hrole]
    exact hraw

end ParseState

/-! ## Handlers -/

section Handlers

variable [DecidableEq K] {state : ParseState K} {first : NodeId} {whole : List Char}

/-- What is done with what a rule recognised. It starts at a mark, and the text is the same. -/
theorem ParseState.Recalls.run_eat {rule : Rule} {act : RuleMatch → Program K M Unit} {memory : M}
    (h : state.Recalls first whole)
    (hact : ∀ found next, next.Recalls first whole → next.Marks state.mark →
      ((act found).run next memory).state.Recalls first whole) :
    ((Program.eat rule fun
      | some found => act found
      | none => .pure ()).run state memory).state.Recalls first whole := by
  rw [Program.run]
  split
  next found moved heat =>
    obtain ⟨hmoved, hmarks⟩ := h.eat? heat
    cases found with
    | none => exact hmoved
    | some found => exact hact found moved hmoved hmarks
  next => exact h

/-- **Handlers with rules** make nodes that remember the text. -/
theorem Handler.recalls_run (handler : Handler K M) (hrule : handler.rule?.isSome)
    (h : state.Recalls first whole) (memory : M) :
    (handler.program.run state memory).state.Recalls first whole := by
  cases handler with
  | middleware program => cases hrule
  | capture kind rule =>
    refine h.run_eat fun found moved hmoved hmarks => ?_
    obtain ⟨id, next, hpush, hnext⟩ := hmoved.exists_push? hmarks kind
    rw [Program.run_push hpush]
    exact hnext
  | opening kind rule =>
    refine h.run_eat fun found moved hmoved hmarks => ?_
    obtain ⟨id, next, hopen, hnext⟩ := hmoved.exists_openGroup? hmarks kind found.lead
    simp only [Program.run, hopen]
    exact hnext
  | closing kind rule =>
    refine h.run_eat fun found moved hmoved hmarks => ?_
    obtain ⟨result, next, hclose, hnext⟩ := hmoved.exists_closeGroup? hmarks kind found.trail
    simp only [Program.close, Program.bind, Program.run, hclose]
    cases result <;> exact hnext

/-- A table without programs keeps it so that nodes remember the text. -/
theorem Parser.keptBy_recalls_of_rules {handlers : List (Handler K M)}
    (rules : ∀ handler ∈ handlers, handler.rule?.isSome) (first : NodeId) (whole : List Char) :
    KeptBy handlers fun state _ => state.Recalls first whole :=
  fun handler hmem _ memory h => handler.recalls_run (rules handler hmem) h memory

end Handlers

end GlobTree
