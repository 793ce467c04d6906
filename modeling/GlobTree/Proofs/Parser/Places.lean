import GlobTree.Proofs.Parser.Marks
import GlobTree.Proofs.Parser.Progress
/-!
# The places of errors

Text is fed to a document, programs run and marks are taken, in any order, until the document is
handed over or given up. `ParseState.Reached` says of a state that this leads to it, with a log of the
text and of the marks.

* In every such state the cursor and the location are where the text that was read ends
  (`ParseState.Located`).
* The errors that a state makes itself, now or with a mark of its document (`ParseState.Raises`), have
  the line and the column that some first part of the text leads to (`ParseError.PointsInto`).
* Whatever calls a parser has, its state is reached with what was fed since the document began
  (`Parser.reached_calls`). If it fails when it is fed, then with such an error, unless a program of
  its table failed (`Parser.pointsInto_of_feed`).
-/

namespace GlobTree

variable {K M : Type}

/-! ## Errors in a text -/

/-- An error is at the place that a first part of a text leads to. -/
def ParseError.PointsInto (error : ParseError K) (label : String) (text : List Char) : Prop :=
  ∃ cause first, first <+: text ∧ error = .at cause label (Location.start.advance first)

theorem ParseError.PointsInto.mono {error : ParseError K} {label : String} {text longer : List Char}
    (h : error.PointsInto label text) (hlonger : text <+: longer) : error.PointsInto label longer := by
  obtain ⟨cause, first, hfirst, rfl⟩ := h
  exact ⟨cause, first, hfirst.trans hlonger, rfl⟩

namespace ParseState

/-- The cursor and the location are where the text that was read ends. -/
structure Located (state : ParseState K) : Prop where
  /-- The end of the source is not passed. -/
  within : state.cursor ≤ state.document.source.utf8ByteSize
  /-- The cursor is between two characters. -/
  boundary : (String.Pos.Raw.mk state.cursor).IsValid state.document.source
  offset : state.location.offset = state.cursor
  location : state.location = Location.start.advance state.consumed
  /-- What was read is the source up to the cursor. -/
  consumed : state.document.slice? 0 state.cursor = some (String.ofList state.consumed)

variable [DecidableEq K] {state next : ParseState K} {start : Mark} {error : ParseError K}

theorem Sound.located (h : state.Sound) : state.Located := by
  have hsource : state.document.source = String.ofList state.consumed ++ String.ofList state.remaining :=
    String.ofList_append
  have hcursor : state.cursor = (String.ofList state.consumed).utf8ByteSize :=
    state.reader.cursor_eq_byteLength_consumed.trans (utf8ByteSize_ofList _).symm
  have boundary : (String.Pos.Raw.mk state.cursor).IsValid state.document.source :=
    String.Pos.Raw.isValid_iff_exists_append.2 ⟨_, _, hsource, congrArg String.Pos.Raw.mk hcursor⟩
  refine ⟨boundary.le_utf8ByteSize, boundary, h.offset_eq, h.location_eq, ?_⟩
  have hslice := sliceBytes?_append [] state.consumed state.remaining
  have hlength : byteLength [] + byteLength state.consumed = state.cursor :=
    (Nat.zero_add _).trans state.reader.cursor_eq_byteLength_consumed.symm
  rw [hlength] at hslice
  rw [Document.slice?, hsource, String.toList_append, String.toList_ofList, String.toList_ofList]
  exact congrArg (Option.map String.ofList) hslice

/-! ## Errors that a state makes -/

/-- The errors that a state makes itself: that there is no handler for the next character, that a
problem is reported, and that a closing token from one of some marks on closes nothing. -/
inductive Raises (state : ParseState K) (marks : List Mark) : ParseError K → Prop
  | noHandler {c : Char} (next : state.peek? = some c) : Raises state marks (state.error (.noHandler c))
  | diagnostic {message : String} {error : ParseError K} {next : ParseState K}
    (h : state.report message = (.error error, next)) : Raises state marks error
  | unbalancedClose {kind : K} {start : Mark} {trail : Option String} {error : ParseError K}
    {next : ParseState K} (taken : start ∈ marks)
    (h : state.closeGroup? kind start trail = some (.error error, next)) : Raises state marks error

/-- An error at the place reached is where the text that was read ends. -/
theorem Sound.pointsInto_error (h : state.Sound) (cause : ParseCause K) :
    (state.error cause).PointsInto state.label state.reader.text :=
  ⟨cause, state.consumed, List.prefix_append _ _, congrArg _ h.location_eq⟩

/-- A closing token that closes nothing is an error where it starts. -/
theorem exists_of_closeGroup?_error {kind : K} {trail : Option String}
    (h : state.closeGroup? kind start trail = some (.error error, next)) :
    ∃ cause, error = .at cause state.label start.location := by
  rw [closeGroup?] at h
  split at h
  next =>
    obtain ⟨raw, -, h⟩ := Option.bind_eq_some_iff.1 h
    cases h
    exact ⟨_, rfl⟩
  next =>
    obtain ⟨token, -, h⟩ := Option.bind_eq_some_iff.1 h
    obtain ⟨⟨id, closed⟩, -, h⟩ := Option.bind_eq_some_iff.1 h
    cases h

/-- **With marks of the document, errors are at places of its text.** -/
theorem Raises.pointsInto {marks : List Mark} (h : state.Raises marks error) (sound : state.Sound)
    (hmarks : ∀ start ∈ marks, state.Marks start) :
    error.PointsInto state.label state.reader.text := by
  cases h with
  | noHandler => exact sound.pointsInto_error _
  | @diagnostic message _ _ hreport =>
    rw [report] at hreport
    split at hreport <;> cases hreport
    exact sound.pointsInto_error _
  | unbalancedClose taken hclose =>
    obtain ⟨cause, rfl⟩ := exists_of_closeGroup?_error hclose
    obtain ⟨before, after, split, hstart⟩ := hmarks _ taken
    refine ⟨cause, before, ?_, congrArg _ hstart⟩
    rw [Reader.text, show state.reader.consumed = before ++ after from split, List.append_assoc]
    exact List.prefix_append _ _

/-! ## States of a document -/

/-- What was fed to a document, and the marks that were taken in it. -/
structure Log where
  fed : List Char := []
  marks : List Mark := []
  deriving DecidableEq, Repr

namespace Log

/-- Text is fed. -/
def feed (log : Log) (chunk : List Char) : Log := { log with fed := log.fed ++ chunk }

/-- A mark is taken. -/
def note (log : Log) (start : Mark) : Log := { log with marks := start :: log.marks }

end Log

/-- A state that a document gets into, with the log up to then. -/
inductive Reached (options : ParserOptions) : Log → ParseState K → Prop
  /-- A document begins. -/
  | fresh : Reached options {} (.fresh options)
  | feed {log : Log} {state : ParseState K} (h : Reached options log state) (chunk : List Char) :
    Reached options (log.feed chunk) (state.feed chunk)
  /-- A program runs. It may fail, and it may be no more than the beginning of a program, so that the
  states in the middle of a run are reached as well. -/
  | run {log : Log} {state : ParseState K} (h : Reached options log state) {M α : Type}
    (program : Program K M α) (memory : M) : Reached options log (program.run state memory).state
  | mark {log : Log} {state : ParseState K} (h : Reached options log state) :
    Reached options (log.note state.mark) state

namespace Reached

variable {options : ParserOptions} {log : Log}

/-- Every operation leads to a state with the same log. -/
theorem kept (options : ParserOptions) (log : Log) :
    Kept (Reached options log : ParseState K → Prop) :=
  .of_run fun h program => h.run program ()

theorem sound (h : Reached options log state) : state.Sound := by
  induction h with
  | fresh => exact sound_fresh options
  | feed _ chunk ih => exact ih.feed chunk
  | run _ program memory ih => exact program.run_kept kept_sound ih memory
  | mark _ ih => exact ih

theorem options_eq (h : Reached options log state) : state.options = options := by
  induction h with
  | fresh => rfl
  | feed _ _ ih => exact ih
  | @run log state _ _ _ program memory ih =>
    obtain ⟨piece, hpiece⟩ := program.exists_readsTo state memory
    exact hpiece.options.trans ih
  | mark _ ih => exact ih

/-- **The text of a document is what was fed to it.** -/
theorem text_eq (h : Reached options log state) : state.reader.text = log.fed := by
  induction h with
  | fresh => rfl
  | @feed log state _ chunk ih =>
    rw [Log.feed, ← ih]
    exact (List.append_assoc ..).symm
  | @run log state _ _ _ program memory ih =>
    obtain ⟨piece, hpiece⟩ := program.exists_readsTo state memory
    exact hpiece.text.trans ih
  | mark _ ih => exact ih

/-- Marks are taken in earlier states of the document. -/
theorem exists_later (h : Reached options log state) (hstart : start ∈ log.marks) :
    ∃ marked : ParseState K, marked.Sound ∧ marked.Later state ∧ start = marked.mark := by
  induction h with
  | fresh => cases hstart
  | feed _ chunk ih =>
    obtain ⟨marked, sound, later, heq⟩ := ih hstart
    exact ⟨marked, sound, later.feed chunk, heq⟩
  | run _ program memory ih =>
    obtain ⟨marked, sound, later, heq⟩ := ih hstart
    exact ⟨marked, sound, later.run program memory, heq⟩
  | mark h ih =>
    rcases List.mem_cons.1 hstart with rfl | hstart
    · exact ⟨_, h.sound, .refl, rfl⟩
    · exact ih hstart

/-- **The errors of a document are at places of what was fed to it.** -/
theorem pointsInto (h : Reached options log state) (hraises : state.Raises log.marks error) :
    error.PointsInto options.sourceLabel log.fed := by
  have hpoints := hraises.pointsInto h.sound fun start hstart => by
    obtain ⟨marked, sound, later, rfl⟩ := h.exists_later hstart
    exact sound.marks_of_later later
  rwa [label, h.options_eq, h.text_eq] at hpoints

/-- So are the errors at the place reached. -/
theorem pointsInto_error (h : Reached options log state) (cause : ParseCause K) :
    (state.error cause).PointsInto options.sourceLabel log.fed := by
  have hpoints := h.sound.pointsInto_error cause
  rwa [label, h.options_eq, h.text_eq] at hpoints

end Reached

end ParseState

open ParseState

variable [DecidableEq K] {state next : ParseState K} {error : ParseError K}

/-! ## Errors of handlers -/

/-- Where a rule recognises nothing, a handler does nothing. -/
theorem Program.exists_of_run_eat {rule : Rule} {act : RuleMatch → Program K M Unit} {memory : M}
    (h : ((Program.eat rule fun
      | some found => act found
      | none => .pure ()).run state memory).result = .error (.failed error)) :
    ∃ found moved, state.eat? rule = some (some found, moved) ∧
      ((act found).run moved memory).result = .error (.failed error) := by
  rw [run] at h
  split at h
  next found moved heat =>
    cases found with
    | none => cases h
    | some found => exact ⟨found, moved, heat, h⟩
  next => cases h

/-- **A handler with a rule fails with a closing token that closes nothing**, and this token starts
where the handler had its turn. -/
theorem Handler.exists_raises {handler : Handler K M} {memory : M} {marks : List Mark}
    (hmark : state.mark ∈ marks)
    (h : (handler.program.run state memory).result = .error (.failed error)) :
    (∃ program, handler = .middleware program) ∨
    ∃ rule found moved, state.eat? rule = some (some found, moved) ∧ moved.Raises marks error := by
  cases handler with
  | middleware program => exact .inl ⟨program, rfl⟩
  | capture kind rule =>
    obtain ⟨found, moved, -, h⟩ := Program.exists_of_run_eat h
    simp only [Program.push, Program.node, Program.bind, Program.run] at h
    cases hnode : moved.node? (.token kind) state.mark with
    | none =>
      rw [hnode] at h
      cases h
    | some node =>
      rw [hnode] at h
      simp only [Program.ofOption, Program.bind, Program.run] at h
      split at h <;> cases h
  | opening kind rule =>
    obtain ⟨found, moved, -, h⟩ := Program.exists_of_run_eat h
    rw [Program.run] at h
    split at h <;> cases h
  | closing kind rule =>
    obtain ⟨found, moved, heat, h⟩ := Program.exists_of_run_eat h
    simp only [Program.close, Program.bind, Program.run] at h
    split at h
    next result closed hclose =>
      cases result with
      | ok id => cases h
      | error cause =>
        cases h
        exact .inr ⟨rule, found, moved, heat, .unbalancedClose hmark hclose⟩
    next => cases h

namespace Parser

/-- **Turns stop with an error** where no handler takes the next character, or where a handler fails. -/
theorem exists_of_turns_failed {P : ParseState K → Prop} (kept : Kept P)
    {handlers : List (Handler K M)} {n : Nat} {memory : M} (hstate : P state)
    (h : (turns handlers n state memory).result = .error (.failed error)) :
    ∃ next, P next ∧ ((∃ c, next.peek? = some c ∧ error = next.error (.noHandler c)) ∨
      ∃ handler ∈ handlers, ∃ stored,
        (handler.program.run next stored).result = .error (.failed error)) := by
  induction n generalizing state memory with
  | zero => cases h
  | succ n ih =>
    have hturn := turnCourse_turn handlers state memory
    have hkept := turn_kept kept state.cursor handlers hstate memory
    rw [turns] at h
    split at h
    next => cases h
    next hend =>
      split at h
      next after stored hrun =>
        rw [hrun] at hkept
        exact ih hkept h
      next after stored hrun =>
        rw [hrun] at hturn hkept
        cases h
        -- Nothing was read, so that there is a next character still.
        obtain ⟨c, cs, htext⟩ := List.exists_cons_of_ne_nil (mt List.isEmpty_iff.2 hend)
        have hpeek : after.peek? = some c :=
          (Passes.peek?_eq hturn).trans (congrArg List.head? htext)
        exact ⟨after, hkept, .inl ⟨c, hpeek, by rw [hpeek]; rfl⟩⟩
      next stop after stored hrun =>
        rw [hrun] at hturn
        cases h
        obtain ⟨handler, before, held, comes, run⟩ := hturn
        have hmem := comes.mem
        obtain ⟨tried, rest, -, passes⟩ := comes
        exact ⟨before, passes.kept kept hstate, .inr ⟨handler, hmem, held, by rw [run]⟩⟩

variable {parser : Parser K M} {options : ParserOptions} {log : Log}

/-- **A feed that fails has an error at a place of the text**, or a program of the table failed. -/
theorem pointsInto_of_feed (h : Reached options log parser.state) {chunk : String}
    (hfeed : (parser.feed chunk).1 = .error (.failed error)) :
    error.PointsInto options.sourceLabel (log.fed ++ chunk.toList) ∨
    ∃ program, .middleware program ∈ parser.handlers.toList ∧
      ∃ next stored, Reached options (log.feed chunk.toList) next ∧
        (program.run next stored).result = .error (.failed error) := by
  cases hpoisoned : parser.poisoned with
  | true =>
    rw [feed_of_poisoned hpoisoned] at hfeed
    cases hfeed
    exact .inl ((h.pointsInto_error _).mono (List.prefix_append _ _))
  | false =>
    rw [feed, guard, hpoisoned] at hfeed
    obtain ⟨next, hnext, ⟨c, hpeek, rfl⟩ | ⟨handler, hmem, stored, hrun⟩⟩ :=
      exists_of_turns_failed (Reached.kept options _) (h.feed chunk.toList) hfeed
    · exact .inl (hnext.pointsInto (.noHandler hpeek))
    · rcases Handler.exists_raises List.mem_cons_self hrun with
        ⟨program, rfl⟩ | ⟨rule, found, moved, heat, hraises⟩
      · exact .inr ⟨program, hmem, next, stored, hnext, hrun⟩
      · exact .inl (((Reached.kept options _).eat hnext.mark heat).pointsInto hraises)

/-! ## Calls -/

/-- The log of a document after its parser was fed. A poisoned parser takes no text. -/
def logOfFeed (parser : Parser K M) (log : Log) (chunk : String) : Log :=
  if parser.poisoned then log else log.feed chunk.toList

/-- The log of the document under way after a call. A document that is handed over or given up takes
its log along. -/
def logOf (parser : Parser K M) (log : Log) : Call → Log
  | .feed chunk => parser.logOfFeed log chunk
  | .finish => if parser.finish.1.isOk then {} else log
  | .parse text => if (parser.parse text).1.isOk then {} else parser.logOfFeed log text
  | .reset => {}

/-- The log of the document under way after some calls. -/
def logOfCalls (parser : Parser K M) (log : Log) : List Call → Log
  | [] => log
  | call :: rest => (parser.call call).2.logOfCalls (parser.logOf log call) rest

theorem reached_feed (h : Reached options log parser.state) (chunk : String) :
    Reached options (parser.logOfFeed log chunk) (parser.feed chunk).2.state := by
  rw [logOfFeed]
  cases hpoisoned : parser.poisoned with
  | true =>
    rw [feed_of_poisoned hpoisoned]
    exact h
  | false =>
    rw [feed, guard, hpoisoned]
    exact turns_kept (Reached.kept options _) _ _ (h.feed chunk.toList) _

theorem reached_finish (h : Reached options log parser.state) :
    Reached options (if parser.finish.1.isOk then {} else log) parser.finish.2.state := by
  rcases parser.finish_cases with ⟨document, -, hfinish⟩ | ⟨stop, poisoned, hfinish⟩
  · rw [hfinish, h.options_eq]
    exact .fresh
  · rw [hfinish]
    exact h

theorem reached_call (h : Reached options log parser.state) (call : Call) :
    Reached options (parser.logOf log call) (parser.call call).2.state := by
  cases call with
  | feed chunk => exact reached_feed h chunk
  | finish => exact reached_finish h
  | parse text =>
    have hfed := reached_feed h text
    show Reached options (if (parser.parse text).1.isOk then _ else _) (parser.parse text).2.state
    rcases parser.parse_cases text with hparse | ⟨stop, -, hparse⟩
    · rw [hparse]
      exact reached_finish hfed
    · rw [hparse]
      exact hfed
  | reset =>
    show Reached options {} (.fresh parser.state.options)
    rw [h.options_eq]
    exact .fresh

/-- **Calls lead to states that are reached**, with what was fed since the document began. -/
theorem reached_calls (h : Reached options log parser.state) (calls : List Call) :
    Reached options (parser.logOfCalls log calls) (parser.calls calls).2.state := by
  induction calls generalizing parser log with
  | nil => exact h
  | cons call calls ih => exact ih (reached_call h call)

/-- **The cursor and the location never drift apart**, in whatever state a document gets into, by
feeding it and by programs that succeed or fail. Both are where the text that was read ends, and the
source is all that was fed. So the errors that a state makes itself, with a mark that was taken in its
document or with none, have the line and the column after a first part of what was fed.

A parser in such a state gets into no other ones, whatever its table and whatever the calls are. If it
is fed and fails, then its error is at such a place as well, unless it is that of a program of the
table, which ran in such a state. -/
theorem places_of_reached (h : Reached options log state) :
    state.Located ∧ state.document.source = String.ofList log.fed ∧
    (∀ error, state.Raises log.marks error → error.PointsInto options.sourceLabel log.fed) ∧
    ∀ parser : Parser K M, parser.state = state →
      (∀ calls, Reached options (parser.logOfCalls log calls) (parser.calls calls).2.state) ∧
      ∀ chunk error, (parser.feed chunk).1 = .error (.failed error) →
        error.PointsInto options.sourceLabel (log.fed ++ chunk.toList) ∨
        ∃ program, .middleware program ∈ parser.handlers.toList ∧
          ∃ next stored, Reached options (log.feed chunk.toList) next ∧
            (program.run next stored).result = .error (.failed error) := by
  refine ⟨h.sound.located, congrArg String.ofList h.text_eq, fun error => h.pointsInto, ?_⟩
  rintro parser rfl
  exact ⟨reached_calls h, fun chunk error => pointsInto_of_feed h⟩

/-- A line is read, then a mark is taken, and a handler reads on and fails. A parenthesis that is
closed from the mark on, and one that is fed, are errors on the second line. -/
theorem places_of_reached_line :
    let handlers : List (Handler Extglob.Kind Unit) :=
      [.capture .text Extglob.textRule, .closing .paren Extglob.parenCloseRule]
    let parser := ((ofHandlers handlers {} ()).calls [.feed "a", .reset, .feed "é\n"]).2
    let own : ParseError Extglob.Kind := .at (.raised .diagnostic "no") "string" .start
    let program : Program Extglob.Kind Unit Unit := .eat Extglob.textRule fun _ => .fail own
    let state := (program.run (parser.state.feed "b)".toList) ()).state
    let log : Log := ⟨"é\nb)".toList, [parser.state.mark]⟩
    Reached {} ⟨"é\n".toList, []⟩ parser.state ∧ Reached {} log state ∧ state.Located ∧
    (∃ error next, state.closeGroup? .paren parser.state.mark none = some (.error error, next) ∧
      error.line = 2 ∧ error.column = 1 ∧ error.PointsInto "string" log.fed) ∧
    ∃ error, (parser.feed "b)").1 = .error (.failed error) ∧ error.line = 2 ∧ error.column = 2 ∧
      error.PointsInto "string" log.fed := by
  intro handlers parser own program state log
  obtain ⟨-, -, -, hcalls⟩ := places_of_reached (M := Unit)
    (.fresh : Reached {} {} (.fresh {} : ParseState Extglob.Kind))
  have hparser : Reached {} ⟨"é\n".toList, []⟩ parser.state :=
    (hcalls (ofHandlers handlers {} ()) rfl).1 [.feed "a", .reset, .feed "é\n"]
  have hstate : Reached {} log state := (hparser.mark.feed "b)".toList).run program ()
  obtain ⟨located, -, hraised, -⟩ := places_of_reached (M := Unit) hstate
  obtain ⟨-, -, -, hfeeds⟩ := places_of_reached (M := Unit) hparser
  refine ⟨hparser, hstate, located, ?_, ?_⟩
  · have hresult : (state.closeGroup? .paren parser.state.mark none).map (·.1) =
        some (.error (.at (.unbalancedClose .paren "b" none) "string" ⟨3, 2, 1⟩)) := by
      decide +kernel
    obtain ⟨⟨_, next⟩, hclose, rfl⟩ := Option.map_eq_some_iff.1 hresult
    exact ⟨_, next, hclose, rfl, rfl, hraised _ (.unbalancedClose List.mem_cons_self hclose)⟩
  · have hfeed : (parser.feed "b)").1 =
        .error (.failed (.at (.unbalancedClose .paren ")" none) "string" ⟨4, 2, 2⟩)) := by
      decide +kernel
    refine ⟨_, hfeed, rfl, rfl, ((hfeeds parser rfl).2 _ _ hfeed).resolve_right ?_⟩
    rintro ⟨program, hmem, -⟩
    -- Both handlers have a rule.
    have htable : parser.handlers.toList = handlers := by
      rw [((ofHandlers handlers {} ()).calls_sameSetup _).handlers, ofHandlers_eq]
    rw [htable] at hmem
    simp [handlers] at hmem

end Parser

end GlobTree
