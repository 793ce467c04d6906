import GlobTree.Proofs.Parser.Keeping
import GlobTree.Proofs.Parser.Table
/-!
# Programs that leave options alone

Handlers can look at the whole state of a parse, its options among the rest. A program is `Plain` if
it makes no use of the options itself, and if an error that a report comes to ends it. What is
registered for tokens and groups is plain, and so are the programs for patterns.

A plain program does the same under other options, as long as the label is the same and reports come
to the same (`Program.Plain.run_mapOptions`). So does a parser whose handlers are all plain
(`Parser.feed_mapOptions`).
-/

namespace GlobTree

variable {K M α β : Type}

/-! ## States with other options -/

/-- A change of options does not touch the label. -/
def KeepsLabel (change : ParserOptions → ParserOptions) : Prop :=
  ∀ options, (change options).sourceLabel = options.sourceLabel

/-- The state with other options. -/
def ParseState.mapOptions (change : ParserOptions → ParserOptions) (state : ParseState K) :
    ParseState K :=
  { state with options := change state.options }

/-- The outcome with other options in its state. -/
def Outcome.mapOptions (change : ParserOptions → ParserOptions) (outcome : Outcome K M α) :
    Outcome K M α :=
  { outcome with state := outcome.state.mapOptions change }

/-- The parser with other options. -/
def Parser.mapOptions (change : ParserOptions → ParserOptions) (parser : Parser K M) :
    Parser K M :=
  { parser with state := parser.state.mapOptions change }

namespace ParseState

variable {change : ParserOptions → ParserOptions}

theorem eat?_mapOptions (change : ParserOptions → ParserOptions) (state : ParseState K)
    (rule : Rule) :
    (state.mapOptions change).eat? rule =
      (state.eat? rule).map (Prod.map id (mapOptions change)) := by
  have hsame : (state.mapOptions change).remaining = state.remaining := rfl
  rw [eat?, eat?, hsame]
  cases state.remaining |> rule.matchHead with
  | none => rfl
  | some found =>
    have hreader : (state.mapOptions change).reader = state.reader := rfl
    simp only [advance?, hreader]
    cases state.reader.advance? found.size <;> rfl

theorem label_mapOptions (hlabel : KeepsLabel change) (state : ParseState K) :
    (state.mapOptions change).label = state.label :=
  hlabel state.options

theorem node?_mapOptions (hlabel : KeepsLabel change) (state : ParseState K) (role : Role K)
    (start : Mark) : (state.mapOptions change).node? role start = state.node? role start := by
  rw [node?, label_mapOptions hlabel]
  rfl

theorem appendTo?_mapOptions (change : ParserOptions → ParserOptions) (state : ParseState K)
    (parent : NodeId) (node : Node K) :
    (state.mapOptions change).appendTo? parent node =
      (state.appendTo? parent node).map (Prod.map id (mapOptions change)) := by
  have hsame : (state.mapOptions change).arena = state.arena := rfl
  rw [appendTo?, appendTo?, hsame]
  cases state.arena.append? parent node <;> rfl

theorem append?_mapOptions (change : ParserOptions → ParserOptions) (state : ParseState K)
    (node : Node K) :
    (state.mapOptions change).append? node =
      (state.append? node).map (Prod.map id (mapOptions change)) :=
  appendTo?_mapOptions change state _ node

theorem openGroup?_mapOptions [DecidableEq K] (hlabel : KeepsLabel change) (state : ParseState K)
    (kind : K) (start : Mark) (lead : Option String) :
    (state.mapOptions change).openGroup? kind start lead =
      (state.openGroup? kind start lead).map (Prod.map id (mapOptions change)) := by
  have hmoment : (state.mapOptions change).moment = state.moment := rfl
  simp only [openGroup?, label_mapOptions hlabel, hmoment, append?_mapOptions]
  cases state.append? _ with
  | none => rfl
  | some grown =>
    obtain ⟨group, outside⟩ := grown
    simp only [Option.map_some, Prod.map, id, bind, Option.bind_some, node?_mapOptions hlabel,
      appendTo?_mapOptions]
    cases outside.node? (.opening kind) start with
    | none => rfl
    | some token =>
      simp only [Option.bind_some]
      cases outside.appendTo? group token <;> rfl

theorem closeGroup?_mapOptions [DecidableEq K] (hlabel : KeepsLabel change) (state : ParseState K)
    (kind : K) (start : Mark) (trail : Option String) :
    (state.mapOptions change).closeGroup? kind start trail =
      (state.closeGroup? kind start trail).map (Prod.map id (mapOptions change)) := by
  have hnesting : (state.mapOptions change).nesting = state.nesting := rfl
  have hreader : (state.mapOptions change).reader = state.reader := rfl
  rw [closeGroup?, closeGroup?, hnesting, hreader, label_mapOptions hlabel]
  cases state.nesting.pop kind with
  | error mismatch => cases state.reader.since? start.location.offset <;> rfl
  | ok closed =>
    obtain ⟨group, nesting⟩ := closed
    let inside : ParseState K := { state with nesting := nesting }
    show ((inside.mapOptions change).node? (.closing kind) start).bind _ =
      ((inside.node? (.closing kind) start).bind _).map _
    rw [node?_mapOptions hlabel]
    cases inside.node? (.closing kind) start with
    | none => rfl
    | some token =>
      show ((inside.mapOptions change).appendTo? group _).bind _ =
        ((inside.appendTo? group _).bind _).map _
      rw [appendTo?_mapOptions]
      cases inside.appendTo? group { token with trail := trail } <;> rfl

theorem report_mapOptions (hlabel : KeepsLabel change) (state : ParseState K)
    (hmode : (change state.options).errorMode = state.options.errorMode) (message : String) :
    (state.mapOptions change).report message =
      Prod.map id (mapOptions change) (state.report message) := by
  have hsame : (state.mapOptions change).options.errorMode = state.options.errorMode := hmode
  rw [report, report, hsame]
  cases state.options.errorMode with
  | collect =>
    rw [label_mapOptions hlabel]
    rfl
  | throw =>
    rw [error, error, label_mapOptions hlabel]
    rfl

end ParseState

/-! ## Plain programs -/

namespace Program

/-- A program does not depend on the options itself, and it ends when a report is an error. -/
def Plain : Program K M α → Prop
  | pure _ | fail _ | outOfBounds => True
  | look next => (∀ change state, KeepsLabel change →
      next (state.mapOptions change) = next state) ∧ ∀ state, (next state).Plain
  | eat _ next => ∀ found, (next found).Plain
  | append _ next => ∀ id, (next id).Plain
  | openGroup _ _ _ next => ∀ id, (next id).Plain
  | closeGroup _ _ _ next => ∀ result, (next result).Plain
  | report _ next => (∀ error, next (.error error) = fail error) ∧ (next (.ok ())).Plain
  | .recall next => ∀ memory, (next memory).Plain
  | store _ next => next.Plain

/-- **Plain programs one after the other are plain.** -/
theorem Plain.bind {program : Program K M α} {next : α → Program K M β} (plain : program.Plain)
    (hnext : ∀ value, (next value).Plain) : (program.bind next).Plain := by
  induction program with
  | pure value => exact hnext value
  | fail | outOfBounds => trivial
  | look after ih =>
    refine ⟨fun change state hlabel => ?_, fun state => ih state (plain.2 state)⟩
    exact congrArg (·.bind next) (plain.1 change state hlabel)
  | eat rule after ih => exact fun found => ih found (plain found)
  | append node after ih => exact fun id => ih id (plain id)
  | openGroup kind start lead after ih => exact fun id => ih id (plain id)
  | closeGroup kind start trail after ih => exact fun result => ih result (plain result)
  | report message after ih =>
    exact ⟨fun error => congrArg (·.bind next) (plain.1 error), ih (.ok ()) plain.2⟩
  | «recall» after ih => exact fun memory => ih memory (plain memory)
  | store memory after ih => exact ih plain

theorem plain_ofExcept (result : Except (ParseError K) α) :
    (ofExcept result : Program K M α).Plain := by
  cases result <;> trivial

theorem plain_ofOption (result : Option α) : (ofOption result : Program K M α).Plain := by
  cases result <;> trivial

theorem plain_mark : (mark : Program K M Mark).Plain := ⟨fun _ _ _ => rfl, fun _ => trivial⟩

theorem plain_push (kind : K) (start : Mark) : (push kind start : Program K M NodeId).Plain := by
  refine Plain.bind (α := Node K) ⟨fun change state hlabel => ?_, fun state => ?_⟩
    fun node id => trivial
  · exact congrArg ofOption (ParseState.node?_mapOptions hlabel state _ start)
  · exact plain_ofOption _

/-- Adding a token is all that is left to do. -/
theorem plain_push_bind (kind : K) (start : Mark) :
    ((push kind start).bind fun _ => .pure () : Program K M Unit).Plain :=
  (plain_push kind start).bind fun _ => trivial

theorem plain_close (kind : K) (start : Mark) (trail : Option String) :
    (close kind start trail : Program K M NodeId).Plain :=
  fun result => plain_ofExcept result

theorem plain_complain (message : String) : (complain message : Program K M Unit).Plain :=
  ⟨fun _ => rfl, trivial⟩

/-- A program that looks at the state, but not at the options. -/
theorem plain_state_bind {next : ParseState K → Program K M α}
    (hsame : ∀ change state, KeepsLabel change → next (state.mapOptions change) = next state)
    (hnext : ∀ state, (next state).Plain) : (state.bind next).Plain :=
  ⟨hsame, hnext⟩

variable [DecidableEq K]

/-- **A plain program does the same under other options**, if reports come to the same. -/
theorem Plain.run_mapOptions {change : ParserOptions → ParserOptions} (hlabel : KeepsLabel change)
    {program : Program K M α} (plain : program.Plain) {state : ParseState K}
    (hmode : (change state.options).errorMode = state.options.errorMode) (memory : M) :
    program.run (state.mapOptions change) memory =
      (program.run state memory).mapOptions change := by
  induction program generalizing state memory with
  | pure | fail | outOfBounds => rfl
  | look next ih =>
    rw [run, plain.1 change state hlabel]
    exact ih state (plain.2 state) hmode memory
  | «recall» next ih => exact ih memory (plain memory) hmode memory
  | store stored next ih => exact ih plain hmode stored
  | report message next ih =>
    rw [run, run, ParseState.report_mapOptions hlabel state hmode]
    cases hcases : state.options.errorMode with
    | collect =>
      let note : Diagnostic := ⟨message, state.location, state.label⟩
      have hkeeps := state.push_note_keeps note
      rw [ParseState.report_collect state hcases]
      exact ih (.ok ()) plain.2 (hkeeps.options ▸ hmode) memory
    | throw =>
      rw [ParseState.report_throw state hcases]
      simp only [Prod.map, id, plain.1]
      rfl
  | eat rule next ih =>
    rw [run, run, ParseState.eat?_mapOptions]
    cases h : state.eat? rule with
    | none => rfl
    | some found =>
      have hkeeps := ParseState.eat?_keeps h
      exact ih _ (plain _) (hkeeps.options ▸ hmode) memory
  | append node next ih =>
    rw [run, run, ParseState.append?_mapOptions]
    cases h : state.append? node with
    | none => rfl
    | some grown =>
      have hkeeps := ParseState.append?_keeps h
      exact ih _ (plain _) (hkeeps.options ▸ hmode) memory
  | openGroup kind start lead next ih =>
    rw [run, run, ParseState.openGroup?_mapOptions hlabel]
    cases h : state.openGroup? kind start lead with
    | none => rfl
    | some grown =>
      have hkeeps := ParseState.openGroup?_keeps h
      exact ih _ (plain _) (hkeeps.options ▸ hmode) memory
  | closeGroup kind start trail next ih =>
    rw [run, run, ParseState.closeGroup?_mapOptions hlabel]
    cases h : state.closeGroup? kind start trail with
    | none => rfl
    | some grown =>
      have hkeeps := ParseState.closeGroup?_keeps h
      exact ih _ (plain _) (hkeeps.options ▸ hmode) memory

end Program

/-! ## Plain handlers -/

/-- The program of a handler is plain. -/
def Handler.Plain (handler : Handler K M) : Prop := handler.program.Plain

namespace Handler

theorem plain_capture (kind : K) (rule : Rule) : (capture kind rule : Handler K M).Plain :=
  Program.plain_mark.bind fun start found => by
    cases found with
    | none => trivial
    | some found => exact Program.plain_push_bind kind start

theorem plain_opening (kind : K) (rule : Rule) : (opening kind rule : Handler K M).Plain :=
  Program.plain_mark.bind fun start found => by
    cases found with
    | none => trivial
    | some found => exact fun _ => trivial

theorem plain_closing (kind : K) (rule : Rule) : (closing kind rule : Handler K M).Plain :=
  Program.plain_mark.bind fun start found => by
    cases found with
    | none => trivial
    | some found => exact (Program.plain_close kind start found.trail).bind fun _ => trivial

end Handler

/-- **All handlers of a table are plain.** -/
theorem Table.plain (table : Table K) (options : ParserOptions) (memory : M) :
    ∀ handler ∈ (Parser.ofTable table options memory).handlers.toList, handler.Plain := by
  intro handler hhandler
  rw [Parser.handlers_ofTable] at hhandler
  obtain ⟨registration, -, hmem⟩ := List.mem_flatMap.1 hhandler
  cases registration with
  | capture kind rule =>
    obtain rfl := List.mem_singleton.1 hmem
    exact Handler.plain_capture kind rule
  | pair kind opening closing =>
    rcases List.mem_pair.1 hmem with rfl | rfl
    · exact Handler.plain_opening kind opening
    · exact Handler.plain_closing kind closing

namespace Extglob

theorem plain_classText : (classText : Program Kind M Unit).Plain := by
  refine Program.plain_state_bind (fun _ _ _ => rfl) fun state => ?_
  split
  · refine Program.plain_mark.bind fun start found => ?_
    cases found with
    | none => trivial
    | some found => exact Program.plain_push_bind Kind.text start
  · trivial

theorem plain_pipe : (pipe : Program Kind M Unit).Plain := by
  refine Program.plain_mark.bind fun start found => ?_
  cases found with
  | none => trivial
  | some found =>
    refine Program.plain_state_bind (fun _ _ _ => rfl) fun state => ?_
    have hpush := Program.plain_push_bind (M := M) Kind.pipe start
    show Program.Plain (ite _ _ _)
    split
    · exact (Program.plain_complain pipeComplaint).bind fun _ => hpush
    · exact hpush

/-- **All handlers for patterns are plain.** -/
theorem plain_handlers (options : ParserOptions) :
    ∀ handler ∈ (parser options).handlers.toList, handler.Plain := by
  intro handler hhandler
  cases handler with
  | capture kind rule => exact Handler.plain_capture kind rule
  | opening kind rule => exact Handler.plain_opening kind rule
  | closing kind rule => exact Handler.plain_closing kind rule
  | middleware program =>
    have hprogram : program = classText ∨ program = pipe := by
      simpa [parser, parserWith, handlers] using hhandler
    rcases hprogram with rfl | rfl
    · exact plain_classText
    · exact plain_pipe

end Extglob

/-! ## Parsers with plain handlers -/

namespace Parser

theorem fresh_mapOptions {change : ParserOptions → ParserOptions} (hlabel : KeepsLabel change)
    (options : ParserOptions) :
    (.fresh (change options) : ParseState K) = (ParseState.fresh options).mapOptions change := by
  rw [ParseState.fresh, ParseState.fresh, ParseState.mapOptions, hlabel]

/-- A parser with a table and other options. -/
theorem ofTable_mapOptions {change : ParserOptions → ParserOptions} (hlabel : KeepsLabel change)
    (table : Table K) (options : ParserOptions) (memory : M) :
    ofTable table (change options) memory = (ofTable table options memory).mapOptions change := by
  have hhandlers : (ofTable table (change options) memory).handlers =
      (ofTable table options memory).handlers := by
    rw [← Array.toList_inj, handlers_ofTable, handlers_ofTable]
  rw [ofTable_eq, hhandlers, fresh_mapOptions hlabel]
  conv_rhs => rw [ofTable_eq]
  rfl

variable [DecidableEq K] {change : ParserOptions → ParserOptions} {handlers : List (Handler K M)}

/-- A turn does the same under other options. -/
theorem turn_mapOptions (hlabel : KeepsLabel change) (plain : ∀ handler ∈ handlers, handler.Plain)
    (start : Nat) {state : ParseState K}
    (hmode : (change state.options).errorMode = state.options.errorMode) (memory : M) :
    turn start handlers (state.mapOptions change) memory =
      (turn start handlers state memory).mapOptions change := by
  induction handlers generalizing state memory with
  | nil => rfl
  | cons handler handlers ih =>
    rw [List.forall_mem_cons] at plain
    obtain ⟨notes, hkeeps⟩ := handler.program.run_keeps state memory
    have hrun := Program.Plain.run_mapOptions hlabel plain.1 hmode memory
    rw [turn, turn, hrun]
    generalize handler.program.run state memory = outcome at hkeeps ⊢
    obtain ⟨result, next, memory⟩ := outcome
    cases result with
    | error stop => rfl
    | ok value =>
      have hcursor : (next.mapOptions change).cursor = next.cursor := rfl
      simp only [Outcome.mapOptions, hcursor]
      split
      · rfl
      · exact ih plain.2 (hkeeps.options ▸ hmode) memory

theorem turns_mapOptions (hlabel : KeepsLabel change) (plain : ∀ handler ∈ handlers, handler.Plain)
    (n : Nat) {state : ParseState K}
    (hmode : (change state.options).errorMode = state.options.errorMode) (memory : M) :
    turns handlers n (state.mapOptions change) memory =
      (turns handlers n state memory).mapOptions change := by
  induction n generalizing state memory with
  | zero => rfl
  | succ n ih =>
    obtain ⟨notes, hkeeps⟩ := turn_keeps state.cursor handlers state memory
    have hturn := turn_mapOptions hlabel plain state.cursor hmode memory
    have hend : (state.mapOptions change).atEnd = state.atEnd := rfl
    have hcursor : (state.mapOptions change).cursor = state.cursor := rfl
    rw [turns, turns, hend, hcursor, hturn]
    split
    · rfl
    · generalize turn state.cursor handlers state memory = outcome at hkeeps ⊢
      obtain ⟨result, next, memory⟩ := outcome
      cases result with
      | error stop => rfl
      | ok acted =>
        cases acted with
        | true => exact ih (hkeeps.options ▸ hmode) memory
        | false =>
          simp only [Outcome.mapOptions, ParseState.error, ParseState.label_mapOptions hlabel]
          rfl

/-- **A parser with plain handlers reads the same under other options**, if reports come to the
same. -/
theorem feed_mapOptions (hlabel : KeepsLabel change) {parser : Parser K M}
    (plain : ∀ handler ∈ parser.handlers.toList, handler.Plain)
    (hmode : (change parser.state.options).errorMode = parser.state.options.errorMode)
    (chunk : String) :
    (parser.mapOptions change).feed chunk =
      Prod.map id (mapOptions change) (parser.feed chunk) := by
  have hpoisoned : (parser.mapOptions change).poisoned = parser.poisoned := rfl
  rw [feed, feed, guard, guard, hpoisoned]
  split
  · have herror : (parser.mapOptions change).state.error .poisoned = parser.state.error .poisoned := by
      rw [ParseState.error, ParseState.error, mapOptions, ParseState.label_mapOptions hlabel]
      rfl
    rw [herror]
    rfl
  · have hfedmode : (change (parser.state.feed chunk.toList).options).errorMode =
      (parser.state.feed chunk.toList).options.errorMode := hmode
    have hturns := turns_mapOptions hlabel plain (parser.state.feed chunk.toList).reader.left
      hfedmode parser.memory
    have hfed : (parser.mapOptions change).state.feed chunk.toList =
      (parser.state.feed chunk.toList).mapOptions change := rfl
    have hleft : ((parser.state.feed chunk.toList).mapOptions change).reader.left =
      (parser.state.feed chunk.toList).reader.left := rfl
    have hsame : (parser.mapOptions change).handlers = parser.handlers := rfl
    have hmemory : (parser.mapOptions change).memory = parser.memory := rfl
    simp only [hfed, hleft, hsame, hmemory, hturns]
    generalize turns parser.handlers.toList _ _ _ = outcome
    obtain ⟨result, next, memory⟩ := outcome
    rfl

end Parser

end GlobTree
