import GlobTree.Proofs.Parser.Plain
/-!
# Problems that are noted and problems that are errors

A parser notes the problems that handlers report, or takes the first of them for an error. With
plain handlers, the two ways go along with each other until a problem is reported: what is the first
note in one is the error in the other (`Parser.parse_throwing`).

`Along` says so of two outcomes from states that differ in this option alone. One program keeps two
runs along (`Program.Plain.run_along`), whatever the one that notes problems does after the first of
them, and so do the turns of a parser (`Parser.turns_along`).
-/

namespace GlobTree

variable {K M α : Type}

/-- The error that a problem is if it is not noted. -/
def Diagnostic.stop (note : Diagnostic) : ParseStop K :=
  .failed (.at (.diagnostic note.message) note.source note.location)

/-- Options under which problems are errors. -/
def throwing (options : ParserOptions) : ParserOptions := options.withErrorMode .throw

theorem keepsLabel_throwing : KeepsLabel throwing := fun _ => rfl

/-- What a run that throws comes to, next to one that collects. If nothing is noted, they come to
the same. The first note is the error of the run that throws. -/
def Along (before : ParseState K) (collected thrown : Outcome K M α) : Prop :=
  ∃ notes, before.Keeps notes collected.state ∧
    match notes with
    | [] => thrown = collected.mapOptions throwing
    | note :: _ => thrown.result = .error note.stop

namespace Along

variable {before next : ParseState K} {collected thrown : Outcome K M α}

/-- Nothing was noted before. -/
theorem after (h : Along next collected thrown) (hkeeps : before.Keeps [] next) :
    Along before collected thrown := by
  obtain ⟨notes, hnotes, hthrown⟩ := h
  exact ⟨notes, hkeeps.trans hnotes, hthrown⟩

theorem refl (state : ParseState K) (result : Except (ParseStop K) α) (memory : M) :
    Along state ⟨result, state, memory⟩ ⟨result, state.mapOptions throwing, memory⟩ :=
  ⟨[], .refl state, rfl⟩

/-- A problem was noted before. The run that throws has ended with it, whatever the other one still
does. -/
theorem stopped {note : Diagnostic} {notes : List Diagnostic}
    (hkeeps : before.Keeps (note :: notes) next) (hmore : ∃ more, next.Keeps more collected.state)
    (hthrown : thrown.result = .error note.stop) : Along before collected thrown := by
  obtain ⟨more, hmore⟩ := hmore
  exact ⟨note :: (notes ++ more), hkeeps.trans hmore, hthrown⟩

end Along

namespace Parser

/-- The problems that were noted when a piece of work ended, in the document or by the parser. -/
def noted (run : Except (ParseStop K) (Document K) × Parser K M) : List Diagnostic :=
  match run with
  | (.ok document, _) => document.diagnostics.toList
  | (.error _, parser) => parser.state.diagnostics.toList

theorem noted_of_ok {run : Except (ParseStop K) (Document K) × Parser K M} {document : Document K}
    (h : run.1 = .ok document) : noted run = document.diagnostics.toList := by
  obtain ⟨result, parser⟩ := run
  obtain rfl : result = .ok document := h
  rfl

/-- Finishing notes nothing. -/
theorem noted_finish (parser : Parser K M) :
    noted parser.finish = parser.state.diagnostics.toList := by
  rw [finish, guard]
  split
  · rfl
  · cases hstate : finishState parser.state with
    | error stop => rfl
    | ok document =>
      obtain ⟨_, _, _, -, rfl⟩ := exists_append?_of_finishState hstate
      rfl

/-- A parser that throws finishes in the same way. -/
theorem finish_throwing (parser : Parser K M) :
    (parser.mapOptions throwing).finish.1 = parser.finish.1 := by
  have hpoisoned : (parser.mapOptions throwing).poisoned = parser.poisoned := rfl
  have hstate : finishState (parser.mapOptions throwing).state = finishState parser.state := rfl
  rw [finish, finish, guard, guard, hpoisoned]
  split
  · rfl
  · rw [hstate]
    cases finishState parser.state <;> rfl

end Parser

variable [DecidableEq K]

/-! ## Runs -/

/-- **Two runs of a plain program go along**, where one collects and the other throws. -/
theorem Program.Plain.run_along {program : Program K M α} (plain : program.Plain)
    {state : ParseState K} (collects : state.options.errorMode = .collect) (memory : M) :
    Along state (program.run state memory) (program.run (state.mapOptions throwing) memory) := by
  have hlabel := keepsLabel_throwing
  induction program generalizing state memory with
  | pure | fail | outOfBounds => exact .refl state _ memory
  | look next ih =>
    rw [run, run, plain.1 throwing state hlabel]
    exact ih state (plain.2 state) collects memory
  | «recall» next ih => exact ih memory (plain memory) collects memory
  | store stored next ih => exact ih plain collects stored
  | report message next ih =>
    -- One run goes on and keeps the note, the other ends with it.
    have hthrow : (state.mapOptions throwing).options.errorMode = .throw := rfl
    rw [run, run, ParseState.report_collect state collects, ParseState.report_throw _ hthrow]
    refine .stopped (state.push_note_keeps _) ((next (.ok ())).run_keeps _ memory) ?_
    simp only [plain.1]
    rfl
  | eat rule next ih =>
    rw [run, run, ParseState.eat?_mapOptions]
    cases h : state.eat? rule with
    | none => exact .refl state _ memory
    | some found =>
      have hkeeps := ParseState.eat?_keeps h
      exact (ih _ (plain _) (hkeeps.options ▸ collects) memory).after hkeeps
  | append node next ih =>
    rw [run, run, ParseState.append?_mapOptions]
    cases h : state.append? node with
    | none => exact .refl state _ memory
    | some grown =>
      have hkeeps := ParseState.append?_keeps h
      exact (ih _ (plain _) (hkeeps.options ▸ collects) memory).after hkeeps
  | openGroup kind start lead next ih =>
    rw [run, run, ParseState.openGroup?_mapOptions hlabel]
    cases h : state.openGroup? kind start lead with
    | none => exact .refl state _ memory
    | some grown =>
      have hkeeps := ParseState.openGroup?_keeps h
      exact (ih _ (plain _) (hkeeps.options ▸ collects) memory).after hkeeps
  | closeGroup kind start trail next ih =>
    rw [run, run, ParseState.closeGroup?_mapOptions hlabel]
    cases h : state.closeGroup? kind start trail with
    | none => exact .refl state _ memory
    | some grown =>
      have hkeeps := ParseState.closeGroup?_keeps h
      exact (ih _ (plain _) (hkeeps.options ▸ collects) memory).after hkeeps

namespace Parser

variable {handlers : List (Handler K M)}

theorem turn_along (plain : ∀ handler ∈ handlers, handler.Plain) (start : Nat)
    {state : ParseState K} (collects : state.options.errorMode = .collect) (memory : M) :
    Along state (turn start handlers state memory)
      (turn start handlers (state.mapOptions throwing) memory) := by
  induction handlers generalizing state memory with
  | nil => exact .refl state _ memory
  | cons handler handlers ih =>
    rw [List.forall_mem_cons] at plain
    obtain ⟨notes, hkeeps, hthrown⟩ := Program.Plain.run_along plain.1 collects memory
    rw [turn, turn]
    generalize handler.program.run state memory = collected at hkeeps hthrown ⊢
    generalize handler.program.run (state.mapOptions throwing) memory = thrown at hthrown ⊢
    obtain ⟨result, next, memory⟩ := collected
    cases notes with
    | nil =>
      obtain rfl : thrown = _ := hthrown
      cases result with
      | error stop => exact ⟨[], hkeeps, rfl⟩
      | ok value =>
        have hcursor : (next.mapOptions throwing).cursor = next.cursor := rfl
        simp only [Outcome.mapOptions, hcursor]
        split
        · exact ⟨[], hkeeps, rfl⟩
        · exact (ih plain.2 (hkeeps.options ▸ collects) memory).after hkeeps
    | cons note notes =>
      obtain ⟨failed, last, other⟩ := thrown
      obtain rfl : failed = .error note.stop := hthrown
      refine .stopped hkeeps ?_ rfl
      cases result with
      | error stop => exact ⟨[], .refl next⟩
      | ok value =>
        dsimp only
        split
        · exact ⟨[], .refl next⟩
        · exact turn_keeps start handlers next memory

/-- **The turns of two parsers with plain handlers go along.** -/
theorem turns_along (plain : ∀ handler ∈ handlers, handler.Plain) (n : Nat)
    {state : ParseState K} (collects : state.options.errorMode = .collect) (memory : M) :
    Along state (turns handlers n state memory)
      (turns handlers n (state.mapOptions throwing) memory) := by
  induction n generalizing state memory with
  | zero => exact .refl state _ memory
  | succ n ih =>
    have hend : (state.mapOptions throwing).atEnd = state.atEnd := rfl
    have hcursor : (state.mapOptions throwing).cursor = state.cursor := rfl
    rw [turns, turns, hend, hcursor]
    split
    · exact .refl state _ memory
    · obtain ⟨notes, hkeeps, hthrown⟩ := turn_along plain state.cursor collects memory
      generalize turn state.cursor handlers state memory = collected at hkeeps hthrown ⊢
      generalize turn state.cursor handlers (state.mapOptions throwing) memory = thrown
        at hthrown ⊢
      obtain ⟨result, next, memory⟩ := collected
      cases notes with
      | nil =>
        obtain rfl : thrown = _ := hthrown
        cases result with
        | error stop => exact ⟨[], hkeeps, rfl⟩
        | ok acted =>
          cases acted with
          | true => exact (ih (hkeeps.options ▸ collects) memory).after hkeeps
          | false => exact ⟨[], hkeeps, rfl⟩
      | cons note notes =>
        obtain ⟨failed, last, other⟩ := thrown
        obtain rfl : failed = .error note.stop := hthrown
        refine .stopped hkeeps ?_ rfl
        cases result with
        | error stop => exact ⟨[], .refl next⟩
        | ok acted =>
          cases acted with
          | true => exact turns_keeps handlers n next memory
          | false => exact ⟨[], .refl next⟩

/-! ## Parses -/

variable {parser : Parser K M}

/-- What comes of feeding a parser that throws, next to one that collects. -/
theorem feed_along (plain : ∀ handler ∈ parser.handlers.toList, handler.Plain)
    (collects : parser.state.options.errorMode = .collect) (chunk : String) :
    ∃ notes, parser.state.Keeps notes (parser.feed chunk).2.state ∧
      match notes with
      | [] => (parser.mapOptions throwing).feed chunk =
        Prod.map id (mapOptions throwing) (parser.feed chunk)
      | note :: _ => ((parser.mapOptions throwing).feed chunk).1 = .error note.stop := by
  have hpoisoned : (parser.mapOptions throwing).poisoned = parser.poisoned := rfl
  have hfed : (parser.mapOptions throwing).state.feed chunk.toList =
    (parser.state.feed chunk.toList).mapOptions throwing := rfl
  rw [feed, feed, guard, guard, hpoisoned, hfed]
  split
  · exact ⟨[], .refl parser.state, rfl⟩
  · have hcollects : (parser.state.feed chunk.toList).options.errorMode = .collect := collects
    obtain ⟨notes, hkeeps, hthrown⟩ := turns_along plain
      (parser.state.feed chunk.toList).reader.left hcollects parser.memory
    have hleft : ((parser.state.feed chunk.toList).mapOptions throwing).reader.left =
      (parser.state.feed chunk.toList).reader.left := rfl
    have hsame : (parser.mapOptions throwing).handlers = parser.handlers := rfl
    have hmemory : (parser.mapOptions throwing).memory = parser.memory := rfl
    simp only [hleft, hsame, hmemory]
    generalize turns parser.handlers.toList _ _ parser.memory = collected at hkeeps hthrown ⊢
    generalize turns parser.handlers.toList _ _ parser.memory = thrown at hthrown ⊢
    refine ⟨notes, (parser.state.feed_keeps chunk.toList).trans hkeeps, ?_⟩
    cases notes with
    | nil =>
      obtain rfl : thrown = _ := hthrown
      rfl
    | cons note notes => exact hthrown

/-- **A parse that throws is one that collects, stopped at the first problem.** If nothing is noted,
the results are the same, and if something is, the first note is the error. -/
theorem parse_throwing (plain : ∀ handler ∈ parser.handlers.toList, handler.Plain)
    (collects : parser.state.options.errorMode = .collect)
    (fresh : parser.state.diagnostics = #[]) (text : String) :
    ((parser.mapOptions throwing).parse text).1 =
      match noted (parser.parse text) with
      | [] => (parser.parse text).1
      | note :: _ => .error note.stop := by
  obtain ⟨notes, hkeeps, hthrown⟩ := feed_along plain collects text
  have hnotes := hkeeps.notes
  rw [fresh, List.nil_append] at hnotes
  have hnoted : noted (parser.parse text) = notes := by
    rw [parse]
    generalize parser.feed text = fed at hnotes ⊢
    obtain ⟨result, next⟩ := fed
    cases result with
    | error stop => exact hnotes
    | ok value => exact (noted_finish next).trans hnotes
  rw [hnoted]
  cases notes with
  | nil =>
    rw [parse, parse, hthrown]
    generalize parser.feed text = fed
    obtain ⟨result, next⟩ := fed
    cases result with
    | error stop => rfl
    | ok value => exact finish_throwing next
  | cons note notes => exact parse_of_feed_error hthrown

end Parser

end GlobTree
