import GlobTree.Proofs.Parser.Keeping
/-!
# What every operation keeps

Handlers work on the state of a parse by five operations and in no other way. What each of these
keeps (`ParseState.Kept`) is kept by every program (`Program.run_kept`).

The turns of a parser keep what all its handlers keep (`Parser.KeptBy.turns`), which may be about
their memory too. What every operation keeps is kept by the turns whatever the handlers are
(`Parser.turns_kept`), and by a feed if adding text keeps it as well (`Parser.feed_kept`).

The reader is the business of one operation alone. A property of what was read and of the place
needs only to outlast the reading of a piece of text (`ParseState.Kept.of_reading`). Nodes are only
ever added, so that a property of the nodes needs only to outlast that (`ParseState.Kept.of_arena`).
-/

namespace GlobTree

variable {K M : Type}

/-! ## What is read -/

/-- Reading a number of bytes is reading a piece of the text. -/
theorem Reader.exists_of_advance? {reader next : Reader} {count : Nat} {text : List Char}
    (h : reader.advance? count = some (text, next)) :
    ∃ rest split, next = reader.after text rest split := by
  rw [advance?] at h
  split at h
  next text' rest' cut =>
    cases h
    exact ⟨rest', _, rfl⟩
  next => cases h

namespace ParseState

/-- Nothing was read between two states. -/
structure SamePlace (before after : ParseState K) : Prop where
  options : after.options = before.options
  reader : after.reader = before.reader
  location : after.location = before.location

variable {state next : ParseState K}

/-- **What a rule recognises is a piece of the text**, or nothing. -/
theorem exists_of_eat? {rule : Rule} {found : Option RuleMatch}
    (h : state.eat? rule = some (found, next)) :
    next = state ∨ ∃ text rest split, next = state.past text rest split := by
  rw [eat?] at h
  split at h
  · cases h
    exact .inl rfl
  · obtain ⟨moved, hmoved, heq⟩ := Option.map_eq_some_iff.1 h
    cases heq
    obtain ⟨⟨text, reader⟩, hread, rfl⟩ := Option.map_eq_some_iff.1 hmoved
    obtain ⟨rest, split, rfl⟩ := Reader.exists_of_advance? hread
    exact .inr ⟨text, rest, split, rfl⟩

theorem appendTo?_samePlace {parent id : NodeId} {node : Node K}
    (h : state.appendTo? parent node = some (id, next)) : state.SamePlace next := by
  obtain ⟨⟨new, arena⟩, -, heq⟩ := Option.map_eq_some_iff.1 h
  cases heq
  exact ⟨rfl, rfl, rfl⟩

theorem report_samePlace (state : ParseState K) (message : String) :
    state.SamePlace (state.report message).2 := by
  rw [report]
  split <;> exact ⟨rfl, rfl, rfl⟩

variable [DecidableEq K]

theorem openGroup?_samePlace {kind : K} {start : Mark} {lead : Option String} {id : NodeId}
    (h : state.openGroup? kind start lead = some (id, next)) : state.SamePlace next := by
  obtain ⟨⟨group, outside⟩, hgroup, h⟩ := Option.bind_eq_some_iff.1 h
  obtain ⟨token, -, h⟩ := Option.bind_eq_some_iff.1 h
  obtain ⟨⟨_, inside⟩, htoken, h⟩ := Option.bind_eq_some_iff.1 h
  cases h
  have houtside := appendTo?_samePlace hgroup
  have hinside := appendTo?_samePlace htoken
  exact ⟨hinside.options.trans houtside.options, hinside.reader.trans houtside.reader,
    hinside.location.trans houtside.location⟩

theorem closeGroup?_samePlace {kind : K} {start : Mark} {trail : Option String}
    {result : Except (ParseError K) NodeId}
    (h : state.closeGroup? kind start trail = some (result, next)) : state.SamePlace next := by
  rw [closeGroup?] at h
  split at h
  · obtain ⟨raw, -, h⟩ := Option.bind_eq_some_iff.1 h
    cases h
    exact ⟨rfl, rfl, rfl⟩
  · obtain ⟨token, -, h⟩ := Option.bind_eq_some_iff.1 h
    obtain ⟨⟨id, closed⟩, hclosed, h⟩ := Option.bind_eq_some_iff.1 h
    cases h
    have hsame := appendTo?_samePlace hclosed
    exact ⟨hsame.options, hsame.reader, hsame.location⟩

/-! ## Invariants -/

/-- Every operation that handlers have keeps a property of states. -/
structure Kept (P : ParseState K → Prop) : Prop where
  eat : ∀ {state next : ParseState K} {rule : Rule} {found : Option RuleMatch},
    P state → state.eat? rule = some (found, next) → P next
  append : ∀ {state next : ParseState K} {node : Node K} {id : NodeId},
    P state → state.append? node = some (id, next) → P next
  openGroup : ∀ {state next : ParseState K} {kind : K} {start : Mark} {lead : Option String}
    {id : NodeId}, P state → state.openGroup? kind start lead = some (id, next) → P next
  closeGroup : ∀ {state next : ParseState K} {kind : K} {start : Mark} {trail : Option String}
    {result : Except (ParseError K) NodeId},
    P state → state.closeGroup? kind start trail = some (result, next) → P next
  report : ∀ {state : ParseState K} (message : String), P state → P (state.report message).2

variable {P : ParseState K → Prop}

/-- **A property of what was read and of the place** is kept if it outlasts reading on. -/
theorem Kept.of_reading
    (same : ∀ {before after : ParseState K}, before.SamePlace after → P before → P after)
    (read : ∀ {state : ParseState K} (text rest : List Char) (split : state.remaining = text ++ rest),
      P state → P (state.past text rest split)) : Kept P where
  eat h heat := by
    rcases exists_of_eat? heat with rfl | ⟨text, rest, split, rfl⟩
    · exact h
    · exact read text rest split h
  append h happend := same (appendTo?_samePlace happend) h
  openGroup h hopen := same (openGroup?_samePlace hopen) h
  closeGroup h hclose := same (closeGroup?_samePlace hclose) h
  report message h := same (report_samePlace _ message) h

/-- **A property of the nodes** is kept if it outlasts adding one. -/
theorem Kept.of_arena {Q : Arena K → Prop}
    (add : ∀ {arena next : Arena K}, Q arena → ∀ {parent id : NodeId} {node : Node K},
      arena.append? parent node = some (id, next) → Q next) :
    Kept fun state : ParseState K => Q state.arena := by
  have appendTo {state next : ParseState K} (h : Q state.arena) {parent id : NodeId} {node : Node K}
      (happend : state.appendTo? parent node = some (id, next)) : Q next.arena := by
    obtain ⟨⟨new, arena⟩, hnew, heq⟩ := Option.map_eq_some_iff.1 happend
    cases heq
    exact add h hnew
  refine ⟨?eat, fun h happend => appendTo h happend, ?openGroup, ?closeGroup, ?report⟩
  case eat =>
    intro state next rule found h heat
    rcases exists_of_eat? heat with rfl | ⟨text, rest, split, rfl⟩ <;> exact h
  case openGroup =>
    intro state next kind start lead id h hopen
    obtain ⟨⟨group, outside⟩, hgroup, hopen⟩ := Option.bind_eq_some_iff.1 hopen
    obtain ⟨token, -, hopen⟩ := Option.bind_eq_some_iff.1 hopen
    obtain ⟨⟨_, inside⟩, htoken, hopen⟩ := Option.bind_eq_some_iff.1 hopen
    cases hopen
    have hinside : Q inside.arena := appendTo (appendTo h hgroup) htoken
    exact hinside
  case closeGroup =>
    intro state next kind start trail result h hclose
    rw [closeGroup?] at hclose
    split at hclose
    next =>
      obtain ⟨raw, -, hclose⟩ := Option.bind_eq_some_iff.1 hclose
      cases hclose
      exact h
    next group nesting hpop =>
      have hpopped : Q ({ state with nesting := nesting } : ParseState K).arena := h
      obtain ⟨token, -, hclose⟩ := Option.bind_eq_some_iff.1 hclose
      obtain ⟨⟨id, closed⟩, hclosed, hclose⟩ := Option.bind_eq_some_iff.1 hclose
      cases hclose
      exact appendTo hpopped hclosed
  case report =>
    intro state message h
    rw [ParseState.report]
    split <;> exact h

end ParseState

open ParseState

variable [DecidableEq K] {P : ParseState K → Prop}

/-- **A program keeps what every operation keeps.** -/
theorem Program.run_kept {α : Type} (kept : Kept P) (program : Program K M α)
    {state : ParseState K} (h : P state) (memory : M) : P (program.run state memory).state := by
  induction program generalizing state memory with
  | pure | fail | outOfBounds => exact h
  | look next ih => exact ih state h memory
  | «recall» next ih => exact ih memory h memory
  | store stored next ih => exact ih h stored
  | report message next ih => exact ih _ (kept.report message h) memory
  | eat rule next ih =>
    rw [run]
    split
    next found moved heat => exact ih found (kept.eat h heat) memory
    next => exact h
  | append node next ih =>
    rw [run]
    split
    next id grown happend => exact ih id (kept.append h happend) memory
    next => exact h
  | openGroup kind start lead next ih =>
    rw [run]
    split
    next id grown hopen => exact ih id (kept.openGroup h hopen) memory
    next => exact h
  | closeGroup kind start trail next ih =>
    rw [run]
    split
    next result grown hclose => exact ih result (kept.closeGroup h hclose) memory
    next => exact h

/-- What every program keeps is kept by every operation, since each is a program. -/
theorem ParseState.Kept.of_run
    (run : ∀ {state : ParseState K}, P state → ∀ program : Program K Unit Unit,
      P (program.run state ()).state) : Kept P where
  eat {before after rule found} h heat := by
    have hrun := run h (.eat rule fun _ => .pure ())
    rwa [Program.run, heat] at hrun
  append {before after node id} h happend := by
    have hrun := run h (.append node fun _ => .pure ())
    rwa [Program.run, happend] at hrun
  openGroup {before after kind start lead id} h hopen := by
    have hrun := run h (.openGroup kind start lead fun _ => .pure ())
    rwa [Program.run, hopen] at hrun
  closeGroup {before after kind start trail result} h hclose := by
    have hrun := run h (.closeGroup kind start trail fun _ => .pure ())
    rwa [Program.run, hclose] at hrun
  report message h := run h (.report message fun _ => .pure ())

namespace Parser

/-- Every handler of a table keeps a property of the state and the memory. -/
def KeptBy (handlers : List (Handler K M)) (Q : ParseState K → M → Prop) : Prop :=
  ∀ handler ∈ handlers, ∀ state memory, Q state memory →
    Q (handler.program.run state memory).state (handler.program.run state memory).memory

variable {handlers : List (Handler K M)} {Q : ParseState K → M → Prop} {state : ParseState K}
  {memory : M}

theorem KeptBy.turn (kept : KeptBy handlers Q) (start : Nat) (h : Q state memory) :
    Q (turn start handlers state memory).state (turn start handlers state memory).memory := by
  induction handlers generalizing state memory with
  | nil => exact h
  | cons handler handlers ih =>
    have hfirst := kept handler List.mem_cons_self state memory h
    have hrest : KeptBy handlers Q := fun other hother =>
      kept other (List.mem_cons_of_mem _ hother)
    rw [Parser.turn]
    split
    next hrun =>
      rw [hrun] at hfirst
      split
      · exact hfirst
      · exact ih hrest hfirst
    next hrun =>
      rw [hrun] at hfirst
      exact hfirst

/-- **The turns of a parser keep what its handlers keep.** -/
theorem KeptBy.turns (kept : KeptBy handlers Q) (n : Nat) (h : Q state memory) :
    Q (turns handlers n state memory).state (turns handlers n state memory).memory := by
  induction n generalizing state memory with
  | zero => exact h
  | succ n ih =>
    have hturn := kept.turn state.cursor h
    rw [Parser.turns]
    split
    · exact h
    · split
      next hrun =>
        rw [hrun] at hturn
        exact ih hturn
      all_goals
        next hrun =>
          rw [hrun] at hturn
          exact hturn

/-- Whatever the handlers are, they keep what every operation keeps. -/
theorem keptBy_of_kept (kept : Kept P) (handlers : List (Handler K M)) :
    KeptBy handlers fun state _ => P state :=
  fun handler _ _ memory h => handler.program.run_kept kept h memory

theorem turn_kept (kept : Kept P) (start : Nat) (handlers : List (Handler K M)) (h : P state)
    (memory : M) : P (turn start handlers state memory).state :=
  (keptBy_of_kept kept handlers).turn start h

/-- **The turns of a parser keep what every operation keeps**, whatever its handlers are. -/
theorem turns_kept (kept : Kept P) (handlers : List (Handler K M)) (n : Nat) (h : P state)
    (memory : M) : P (turns handlers n state memory).state :=
  (keptBy_of_kept kept handlers).turns n h

/-- A parser that is fed keeps what every operation keeps and what adding text keeps. -/
theorem feed_kept (kept : Kept P) {parser : Parser K M} (h : P parser.state) (chunk : String)
    (hfeed : P parser.state → P (parser.state.feed chunk.toList)) :
    P (parser.feed chunk).2.state := by
  rw [feed, guard]
  split
  · exact h
  · exact turns_kept kept _ _ (hfeed h) _

end Parser

end GlobTree
