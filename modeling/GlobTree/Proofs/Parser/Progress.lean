import GlobTree.Proofs.Parser.OpenGroups
/-!
# The course of a feed

A parser that is fed takes turns until all text is read. In a turn the handlers are tried in order:
some pass, which means that they leave the cursor where it is (`Parser.Passes`), and then one of them
moves it, or fails, or there is none left. `Parser.Course` says how many turns there are and how the
last of them ends, without a bound on their number.

Every turn but the last reads something, so that there are at most as many as there are bytes to
read, and the bound that `Parser.turns` has is never reached (`Parser.course_turns`). Handlers may do
to the tree what they like. If rules match at the head of a text only, then nothing goes out of bounds
but a program of the table.
-/

namespace GlobTree

variable {K M : Type}

/-! ## Reading on -/

namespace ParseState

/-- A piece of the text was read between two states. -/
structure ReadsTo (before : ParseState K) (piece : List Char) (after : ParseState K) : Prop where
  options : after.options = before.options
  consumed : after.consumed = before.consumed ++ piece
  remaining : before.remaining = piece ++ after.remaining

/-- A state is further on in the same text, between two of its characters. -/
structure Further (before after : ParseState K) : Prop where
  text : after.reader.text = before.reader.text
  grows : before.cursor < after.cursor
  /-- The end is not passed. -/
  within : after.cursor ≤ byteLength after.reader.text
  boundary : ∃ front back, after.reader.text = front ++ back ∧ after.cursor = byteLength front

namespace ReadsTo

variable {before after : ParseState K} {piece : List Char}

theorem refl (state : ParseState K) : state.ReadsTo [] state :=
  ⟨rfl, (List.append_nil _).symm, rfl⟩

theorem text (h : before.ReadsTo piece after) : after.reader.text = before.reader.text := by
  show after.consumed ++ after.remaining = before.consumed ++ before.remaining
  rw [h.consumed, h.remaining, List.append_assoc]

theorem cursor (h : before.ReadsTo piece after) :
    after.cursor = before.cursor + byteLength piece := by
  have hcursor (state : ParseState K) : state.cursor = byteLength state.consumed :=
    state.reader.cursor_eq_byteLength_consumed
  rw [hcursor, hcursor, h.consumed, byteLength_append]

theorem left (h : before.ReadsTo piece after) :
    before.reader.left = byteLength piece + after.reader.left := by
  have hleft (state : ParseState K) : state.reader.left = byteLength state.remaining :=
    state.reader.left_eq
  rw [hleft, hleft, h.remaining, byteLength_append]

/-- Nothing was read if the cursor did not move. -/
theorem eq_nil (h : before.ReadsTo piece after) (same : after.cursor = before.cursor) :
    piece = [] := by
  have hcursor := h.cursor
  cases piece with
  | nil => rfl
  | cons c piece =>
    have hc := c.utf8Size_pos
    rw [byteLength_cons] at hcursor
    omega

theorem further (h : before.ReadsTo piece after) (grows : before.cursor < after.cursor) :
    before.Further after where
  text := h.text
  grows := grows
  within := by
    have hcursor : after.cursor = byteLength after.consumed :=
      after.reader.cursor_eq_byteLength_consumed
    rw [hcursor, Reader.text, byteLength_append]
    exact Nat.le_add_right _ _
  boundary := ⟨after.consumed, after.remaining, rfl, after.reader.cursor_eq_byteLength_consumed⟩

end ReadsTo

/-- **Whatever handlers do, they can only read on.** -/
theorem kept_readsTo [DecidableEq K] (before : ParseState K) :
    Kept fun after => ∃ piece, before.ReadsTo piece after := by
  refine .of_reading ?_ ?_
  · rintro state next same ⟨piece, h⟩
    have hconsumed : next.consumed = state.consumed := congrArg Reader.consumed same.reader
    have hremaining : next.remaining = state.remaining := congrArg Reader.rest same.reader
    exact ⟨piece, same.options.trans h.options, hconsumed.trans h.consumed, hremaining ▸ h.remaining⟩
  · rintro state text rest split ⟨piece, h⟩
    refine ⟨piece ++ text, h.options, ?_, ?_⟩
    · rw [past_consumed, h.consumed, List.append_assoc]
    · rw [h.remaining, split, List.append_assoc]
      rfl

end ParseState

theorem Program.exists_readsTo [DecidableEq K] {α : Type} (program : Program K M α)
    (state : ParseState K) (memory : M) :
    ∃ piece, state.ReadsTo piece (program.run state memory).state :=
  program.run_kept (ParseState.kept_readsTo state) ⟨[], .refl state⟩ memory

/-! ## Handlers in bounds -/

/-- A rule in a table matches at the head of a text only. -/
def Handler.HeadOnly : Handler K M → Prop
  | .capture _ rule | .opening _ rule | .closing _ rule => rule.HeadOnly
  | .middleware _ => True

namespace Parser

variable [DecidableEq K]

theorem inBounds_of_answers {run : M → Outcome K M Unit} {state : ParseState K} {draft : Draft K}
    {c : Char} {cs : List Char} {piece : Option (Use K × Nat)}
    (h : Answers run () () state draft c cs piece) (memory : M) :
    (run memory).result ≠ .error .outOfBounds := by
  intro hresult
  cases piece with
  | none =>
    rw [h memory] at hresult
    cases hresult
  | some piece =>
    simp only [Answers] at h
    split at h
    · obtain ⟨_, -, hrun⟩ := h
      rw [hrun memory] at hresult
      cases hresult
    · obtain ⟨_, hrun⟩ := h
      rw [hrun memory] at hresult
      cases hresult

/-- **Only a program goes out of bounds**, as long as there is something to read and rules match at
the head of a text only. -/
theorem exists_middleware_of_outOfBounds {handler : Handler K M} (headOnly : handler.HeadOnly)
    {state : ParseState K} (sound : state.Sound) {c : Char} {cs : List Char}
    (text : state.remaining = c :: cs) {memory : M}
    (h : (handler.program.run state memory).result = .error .outOfBounds) :
    ∃ program, handler = .middleware program := by
  obtain ⟨⟨draft, hfollows, -⟩, -⟩ := sound
  cases handler with
  | middleware program => exact ⟨program, rfl⟩
  | capture kind rule =>
    have hanswers := answers_capture (M := M) hfollows text (headOnly.finds c cs) kind
    exact absurd h (inBounds_of_answers hanswers memory)
  | opening kind rule =>
    have hanswers := answers_opening (M := M) hfollows text (headOnly.finds c cs) kind
    exact absurd h (inBounds_of_answers hanswers memory)
  | closing kind rule =>
    have hanswers := answers_closing (M := M) hfollows text (headOnly.finds c cs) kind
    exact absurd h (inBounds_of_answers hanswers memory)

/-! ## Turns -/

/-- Handlers are run one after the other, and none of them fails or moves the cursor. -/
inductive Passes : List (Handler K M) → ParseState K → M → ParseState K → M → Prop
  | nil {state memory} : Passes [] state memory state memory
  | cons {handler handlers state memory next stored last kept}
      (run : handler.program.run state memory = ⟨.ok (), next, stored⟩)
      (same : next.cursor = state.cursor) (rest : Passes handlers next stored last kept) :
      Passes (handler :: handlers) state memory last kept

/-- A handler has its turn in a state, after those before it have passed. -/
def ComesTo (handlers : List (Handler K M)) (state : ParseState K) (memory : M)
    (handler : Handler K M) (next : ParseState K) (stored : M) : Prop :=
  ∃ tried rest, handlers = tried ++ handler :: rest ∧ Passes tried state memory next stored

/-- How a turn goes: a handler moves the cursor, or a handler stops the parse, or all pass. -/
def TurnCourse (handlers : List (Handler K M)) (state : ParseState K) (memory : M) :
    Outcome K M Bool → Prop
  | ⟨.ok true, next, stored⟩ => ∃ handler before held,
    ComesTo handlers state memory handler before held ∧
      handler.program.run before held = ⟨.ok (), next, stored⟩ ∧ state.cursor < next.cursor
  | ⟨.ok false, next, stored⟩ => Passes handlers state memory next stored
  | ⟨.error stop, next, stored⟩ => ∃ handler before held,
    ComesTo handlers state memory handler before held ∧
      handler.program.run before held = ⟨.error stop, next, stored⟩

section Turns

variable {handlers : List (Handler K M)} {handler other : Handler K M}
  {state next last : ParseState K} {memory stored held : M}

theorem Passes.cursor (h : Passes handlers state memory next stored) :
    next.cursor = state.cursor := by
  induction h with
  | nil => rfl
  | cons _ same _ ih => exact ih.trans same

/-- What every operation keeps is kept by handlers that pass. -/
theorem Passes.kept {P : ParseState K → Prop} (h : Passes handlers state memory next stored)
    (kept : ParseState.Kept P) (hstate : P state) : P next := by
  induction h with
  | nil => exact hstate
  | @cons handler _ _ memory _ _ _ _ run _ _ ih =>
    have hrun := handler.program.run_kept kept hstate memory
    rw [run] at hrun
    exact ih hrun

/-- Handlers that pass have read nothing. -/
theorem Passes.readsTo (h : Passes handlers state memory next stored) : state.ReadsTo [] next := by
  obtain ⟨piece, hpiece⟩ := h.kept (ParseState.kept_readsTo state) ⟨[], .refl state⟩
  rwa [hpiece.eq_nil h.cursor] at hpiece

theorem Passes.peek?_eq (h : Passes handlers state memory next stored) :
    next.peek? = state.peek? := by
  show next.remaining.head? = state.remaining.head?
  rw [h.readsTo.remaining, List.nil_append]

theorem ComesTo.cons (run : handler.program.run state memory = ⟨.ok (), next, stored⟩)
    (same : next.cursor = state.cursor) (h : ComesTo handlers next stored other last held) :
    ComesTo (handler :: handlers) state memory other last held := by
  obtain ⟨tried, rest, rfl, passes⟩ := h
  exact ⟨handler :: tried, rest, rfl, .cons run same passes⟩

theorem comesTo_head : ComesTo (handler :: handlers) state memory handler state memory :=
  ⟨[], handlers, rfl, .nil⟩

theorem TurnCourse.cons {outcome : Outcome K M Bool}
    (run : handler.program.run state memory = ⟨.ok (), next, stored⟩)
    (same : next.cursor = state.cursor) (h : TurnCourse handlers next stored outcome) :
    TurnCourse (handler :: handlers) state memory outcome := by
  obtain ⟨result, last, left⟩ := outcome
  cases result with
  | ok moved =>
    cases moved with
    | true =>
      obtain ⟨other, before, held, comes, hrun, grows⟩ := h
      exact ⟨other, before, held, comes.cons run same, hrun, same ▸ grows⟩
    | false => exact Passes.cons run same h
  | error stop =>
    obtain ⟨other, before, held, comes, hrun⟩ := h
    exact ⟨other, before, held, comes.cons run same, hrun⟩

/-- **Every turn goes in one of the three ways.** -/
theorem turnCourse_turn (handlers : List (Handler K M)) (state : ParseState K) (memory : M) :
    TurnCourse handlers state memory (turn state.cursor handlers state memory) := by
  induction handlers generalizing state memory with
  | nil => exact .nil
  | cons handler handlers ih =>
    rw [turn]
    split
    next next stored hrun =>
      split
      next grows => exact ⟨handler, state, memory, comesTo_head, hrun, grows⟩
      next hstays =>
        -- No program moves the cursor back.
        have hreads := handler.program.exists_readsTo state memory
        rw [hrun] at hreads
        obtain ⟨piece, hpiece⟩ : ∃ piece, state.ReadsTo piece next := hreads
        have hcursor := hpiece.cursor
        have same : next.cursor = state.cursor := by omega
        rw [← same]
        exact (ih next stored).cons hrun same
    next next stored hrun => exact ⟨handler, state, memory, comesTo_head, hrun⟩

theorem ComesTo.mem (h : ComesTo handlers state memory handler next stored) :
    handler ∈ handlers := by
  obtain ⟨tried, rest, rfl, -⟩ := h
  exact List.mem_append_right _ List.mem_cons_self

/-- What a handler reads when it has its turn. -/
theorem ComesTo.readsTo_run (h : ComesTo handlers state memory handler next stored) :
    ∃ piece, state.ReadsTo piece (handler.program.run next stored).state := by
  obtain ⟨tried, rest, -, passes⟩ := h
  exact handler.program.run_kept (ParseState.kept_readsTo state) ⟨[], passes.readsTo⟩ stored

end Turns

/-! ## All turns -/

/-- The turns over a text: their number, and what the last of them comes to. -/
inductive Course (handlers : List (Handler K M)) :
    Nat → ParseState K → M → Outcome K M Unit → Prop
  /-- All is read. -/
  | done {state memory} (all : state.remaining = []) :
      Course handlers 0 state memory ⟨.ok (), state, memory⟩
  /-- A handler moves the cursor, and the next turn begins. -/
  | moved {n state memory handler before held after stored outcome}
      (comes : ComesTo handlers state memory handler before held)
      (run : handler.program.run before held = ⟨.ok (), after, stored⟩)
      (further : state.Further after) (rest : Course handlers n after stored outcome) :
      Course handlers (n + 1) state memory outcome
  /-- A handler fails. -/
  | failed {state memory handler before held after stored error}
      (comes : ComesTo handlers state memory handler before held)
      (run : handler.program.run before held = ⟨.error (.failed error), after, stored⟩) :
      Course handlers 1 state memory ⟨.error (.failed error), after, stored⟩
  /-- A program of the table goes out of bounds. -/
  | outside {state memory program before held after stored}
      (comes : ComesTo handlers state memory (.middleware program) before held)
      (run : program.run before held = ⟨.error .outOfBounds, after, stored⟩) :
      Course handlers 1 state memory ⟨.error .outOfBounds, after, stored⟩
  /-- All handlers pass, so that none takes the next character. -/
  | stuck {state memory c cs after stored} (text : state.remaining = c :: cs)
      (passes : Passes handlers state memory after stored) :
      Course handlers 1 state memory
        ⟨.error (.failed (.at (.noHandler c) state.label (Location.start.advance state.consumed))),
          after, stored⟩

/-- All is read where a feed does not stop. -/
theorem Course.remaining_eq_nil {handlers : List (Handler K M)} {n : Nat} {state : ParseState K}
    {memory : M} {outcome : Outcome K M Unit} (h : Course handlers n state memory outcome)
    (ok : outcome.result = .ok ()) : outcome.state.remaining = [] := by
  induction h with
  | done all => exact all
  | moved _ _ _ _ ih => exact ih ok
  | failed | outside | stuck => cases ok

/-- Handlers that pass leave an error at the next character. -/
theorem error_of_passes {handlers : List (Handler K M)} {state next : ParseState K}
    {memory stored : M} (h : Passes handlers state memory next stored) (sound : state.Sound)
    {c : Char} {cs : List Char} (text : state.remaining = c :: cs) :
    next.error (.noHandler (next.peek?.getD '\x00')) =
      .at (.noHandler c) state.label (Location.start.advance state.consumed) := by
  obtain ⟨⟨draft, hfollows, -⟩, -⟩ := h.kept ParseState.kept_sound sound
  have hread := h.readsTo
  have hpeek : next.peek? = some c := h.peek?_eq.trans (congrArg List.head? text)
  have hlabel : next.label = state.label := congrArg ParserOptions.sourceLabel hread.options
  rw [hpeek, ParseState.error, hlabel, hfollows.location, hread.consumed, List.append_nil]
  rfl

/-- **The turns of a parser take their course**, with at most as many turns as there are bytes to
read. Each turn but the last reads at least one of them. -/
theorem course_turns {handlers : List (Handler K M)}
    (headOnly : ∀ handler ∈ handlers, handler.HeadOnly) {n : Nat} {state : ParseState K}
    (enough : state.reader.left ≤ n) (sound : state.Sound) (memory : M) :
    ∃ k ≤ state.reader.left, Course handlers k state memory (turns handlers n state memory) := by
  induction n generalizing state memory with
  | zero =>
    have hnil : byteLength state.remaining = 0 := state.reader.left_eq ▸ Nat.le_zero.1 enough
    have all : state.remaining = [] := by
      cases htext : state.remaining with
      | nil => rfl
      | cons c cs =>
        have hc := c.utf8Size_pos
        rw [htext, byteLength_cons] at hnil
        omega
    exact ⟨0, Nat.zero_le _, .done all⟩
  | succ n ih =>
    cases text : state.remaining with
    | nil =>
      have hend : state.atEnd = true := List.isEmpty_iff.2 text
      rw [turns, if_pos hend]
      exact ⟨0, Nat.zero_le _, .done text⟩
    | cons c cs =>
      have hend : ¬ state.atEnd = true := by
        rw [ParseState.atEnd, Reader.atEnd, List.isEmpty_iff]
        exact fun h => List.cons_ne_nil c cs (text.symm.trans h)
      have hleft : 1 ≤ state.reader.left := by
        have hc := c.utf8Size_pos
        have htotal : state.reader.left = byteLength state.remaining := state.reader.left_eq
        rw [text, byteLength_cons] at htotal
        omega
      have hturn := turnCourse_turn handlers state memory
      rw [turns, if_neg hend]
      split
      next after stored hrun =>
        rw [hrun] at hturn
        obtain ⟨handler, before, held, comes, run, grows⟩ := hturn
        have hpiece := comes.readsTo_run
        rw [run] at hpiece
        obtain ⟨piece, hpiece⟩ : ∃ piece, state.ReadsTo piece after := hpiece
        have hafter : after.Sound := by
          have hkept := turn_kept ParseState.kept_sound state.cursor handlers sound memory
          rwa [hrun] at hkept
        -- What the turn has read is missing from what is left, so that the bound falls with it.
        have hcursor := hpiece.cursor
        have hshorter := hpiece.left
        obtain ⟨k, hk, course⟩ := ih (by omega) hafter stored
        exact ⟨k + 1, by omega, .moved comes run (hpiece.further grows) course⟩
      next after stored hrun =>
        rw [hrun] at hturn
        refine ⟨1, hleft, ?_⟩
        have herror := error_of_passes hturn sound text
        simp only [herror]
        exact .stuck text hturn
      next stop after stored hrun =>
        rw [hrun] at hturn
        obtain ⟨handler, before, held, comes, run⟩ := hturn
        refine ⟨1, hleft, ?_⟩
        cases stop with
        | failed error => exact .failed comes run
        | outOfBounds =>
          -- Handlers that passed have read nothing, so that there is still a character to read.
          obtain ⟨tried, rest, -, passes⟩ := id comes
          have hbefore := passes.kept ParseState.kept_sound sound
          have htext : before.remaining = c :: cs := by
            rw [← List.nil_append before.remaining, ← passes.readsTo.remaining, text]
          have hresult : (handler.program.run before held).result = .error .outOfBounds := by
            rw [run]
          obtain ⟨program, rfl⟩ :=
            exists_middleware_of_outOfBounds (headOnly handler comes.mem) hbefore htext hresult
          exact .outside comes run

/-- **A feed takes its course and comes to an end**, in any state that calls lead to, whatever the
handlers do: there are at most as many turns as bytes to read. If it does not stop, then the cursor
is at the end of the text, which is what there was before with the chunk after it. -/
theorem course_feed (handlers : List (Handler K M)) (options : ParserOptions) (memory : M)
    (calls : List Call) (headOnly : ∀ handler ∈ handlers, handler.HeadOnly) (chunk : String) :
    let parser := ((ofHandlers handlers options memory).calls calls).2
    let start := parser.state.feed chunk.toList
    parser.poisoned = false →
      ∃ n outcome, n ≤ byteLength start.remaining ∧
        Course handlers n start parser.memory outcome ∧
        (parser.feed chunk).1 = outcome.result ∧ (parser.feed chunk).2.state = outcome.state ∧
        outcome.state.reader.text = parser.state.reader.text ++ chunk.toList ∧
        (outcome.result = .ok () →
          outcome.state.cursor = byteLength outcome.state.reader.text) := by
  intro parser start clean
  have hsame : parser.handlers.toList = handlers := by
    rw [((ofHandlers handlers options memory).calls_sameSetup calls).handlers, ofHandlers_eq]
  have hsound : start.Sound := (sound_calls handlers options memory calls).feed chunk.toList
  obtain ⟨n, hn, course⟩ := course_turns headOnly (Nat.le_refl _) hsound parser.memory
  rw [start.reader.left_eq] at hn
  obtain ⟨piece, hpiece⟩ := turns_kept (ParseState.kept_readsTo start) handlers start.reader.left
    ⟨[], .refl start⟩ parser.memory
  have htext : start.reader.text = parser.state.reader.text ++ chunk.toList :=
    (List.append_assoc ..).symm
  refine ⟨n, _, hn, course, ?_, ?_, hpiece.text.trans htext, fun ok => ?_⟩
  · rw [feed, guard, clean, hsame]
    rfl
  · rw [feed, guard, clean, hsame]
    rfl
  · have hrest := course.remaining_eq_nil ok
    have hcursor := (turns handlers start.reader.left start
      parser.memory).state.reader.cursor_eq_byteLength_consumed
    rw [Reader.text, show Reader.rest _ = [] from hrest, List.append_nil]
    exact hcursor

/-- A handler that never reads opens a group in every turn. The text has no rule for its last
character, which is on its second line. -/
theorem course_feed_stuck :
    let handlers : List (Handler Extglob.Kind Unit) := [
      .middleware <| .look fun state => .openGroup .paren state.mark none fun _ => .pure (),
      .capture .text Extglob.textRule]
    (∀ handler ∈ handlers, handler.HeadOnly) ∧
    ((ofHandlers handlers {} ()).calls [.feed "é"]).2.poisoned = false ∧
    (((ofHandlers handlers {} ()).calls [.feed "é"]).2.feed "a\n/").1 =
      .error (.failed (.at (.noHandler '/') "string" ⟨4, 2, 1⟩)) ∧
    ∃ n outcome, n ≤ 3 ∧
      Course handlers n (((ofHandlers handlers {} ()).calls [.feed "é"]).2.state.feed "a\n/".toList)
        ((ofHandlers handlers {} ()).calls [.feed "é"]).2.memory outcome := by
  intro handlers
  have anchored : Extglob.textRule.regex.isAnchored := by decide +kernel
  have headOnly : ∀ handler ∈ handlers, handler.HeadOnly := by
    simp only [handlers, List.forall_mem_cons, List.not_mem_nil]
    exact ⟨trivial, Rule.headOnly_of_isAnchored anchored, nofun⟩
  have clean : ((ofHandlers handlers {} ()).calls [.feed "é"]).2.poisoned = false := by
    decide +kernel
  have hleft : byteLength
      (((ofHandlers handlers {} ()).calls [.feed "é"]).2.state.feed "a\n/".toList).remaining = 3 := by
    decide +kernel
  obtain ⟨n, outcome, hn, course, -⟩ :=
    course_feed handlers {} () [.feed "é"] headOnly "a\n/" clean
  exact ⟨headOnly, clean, by decide +kernel, n, outcome, hn.trans_eq hleft, course⟩

end Parser

end GlobTree
