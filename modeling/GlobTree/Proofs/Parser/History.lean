import GlobTree.Extglob.Grammar
import GlobTree.Proofs.Parser.Invariants
/-!
# The life of a parser

A parser is used by one call after the other: it is fed, it finishes, it parses a text, it is reset.
`Parser.calls` makes calls and notes what each of them gives back. `Parser.ofHandlers` is a parser
that was just made.

* A parser is poisoned if and only if a call has failed since it was made or reset
  (`Parser.poisoned_calls_iff`), and then it does nothing (`Parser.call_of_poisoned`).
* A reset and a document both leave a blank parser behind (`Parser.blank_call`). The handlers and
  the options stay the same (`Parser.calls_sameSetup`), and so does the memory if no middleware
  keeps one (`Parser.memory_calls`), so that the calls after that find a new parser.
* What every operation keeps holds of the state after any calls (`Parser.calls_kept`).
-/

namespace GlobTree

variable {K M : Type}

/-! ## Programs without a memory -/

variable [DecidableEq K]

/-- A program leaves the memory of the handlers as it finds it. -/
def Program.Stateless {α : Type} (program : Program K M α) : Prop :=
  ∀ state memory, (program.run state memory).memory = memory

namespace Handler

theorem stateless_capture (kind : K) (rule : Rule) :
    (Handler.capture kind rule : Handler K M).program.Stateless := by
  intro state memory
  simp only [program, Program.mark, Program.bind, Program.run]
  split
  next found moved heat =>
    cases found with
    | none => rfl
    | some found =>
      simp only [Program.push, Program.node, Program.bind, Program.run]
      cases moved.node? (.token kind) state.mark with
      | none => rfl
      | some node =>
        simp only [Program.ofOption, Program.bind, Program.run]
        split <;> rfl
  next => rfl

theorem stateless_opening (kind : K) (rule : Rule) :
    (Handler.opening kind rule : Handler K M).program.Stateless := by
  intro state memory
  simp only [program, Program.mark, Program.bind, Program.run]
  split
  next found moved heat =>
    cases found with
    | none => rfl
    | some found =>
      simp only [Program.run]
      split <;> rfl
  next => rfl

theorem stateless_closing (kind : K) (rule : Rule) :
    (Handler.closing kind rule : Handler K M).program.Stateless := by
  intro state memory
  simp only [program, Program.mark, Program.bind, Program.run]
  split
  next found moved heat =>
    cases found with
    | none => rfl
    | some found =>
      simp only [Program.close, Program.bind, Program.run]
      split
      next result closed hclose => cases result <;> rfl
      next => rfl
  next => rfl

/-- **A handler leaves the memory alone unless it is a program that does not.** -/
theorem stateless (handler : Handler K M)
    (h : ∀ program, handler = .middleware program → program.Stateless) :
    handler.program.Stateless := by
  cases handler with
  | capture kind rule => exact stateless_capture kind rule
  | opening kind rule => exact stateless_opening kind rule
  | closing kind rule => exact stateless_closing kind rule
  | middleware program => exact h program rfl

end Handler

/-! ## Calls -/

namespace Parser

/-- A call to a parser. -/
inductive Call
  | feed (chunk : String)
  | finish
  | parse (text : String)
  | reset
  deriving DecidableEq, Repr

/-- What a call gives back: the document, if it hands one over, or why it stopped. -/
abbrev Reply (K : Type) := Except (ParseStop K) (Option (Document K))

/-- A call returned an error. -/
def Reply.Failed (reply : Reply K) : Prop := ∃ error, reply = .error (.failed error)

/-- Makes a call. -/
def call (parser : Parser K M) : Call → Reply K × Parser K M
  | .feed chunk => Prod.map (Except.map fun _ => none) id (parser.feed chunk)
  | .finish => Prod.map (Except.map some) id parser.finish
  | .parse text => Prod.map (Except.map some) id (parser.parse text)
  | .reset => (.ok none, parser.reset)

/-- Makes one call after the other. The result has every call with the reply to it. -/
def calls (parser : Parser K M) : List Call → List (Call × Reply K) × Parser K M
  | [] => ([], parser)
  | call :: rest =>
    let (reply, next) := parser.call call
    let (history, last) := next.calls rest
    ((call, reply) :: history, last)

/-- A parser that was just made, with its handlers. -/
def ofHandlers (handlers : List (Handler K M)) (options : ParserOptions) (memory : M) :
    Parser K M :=
  handlers.foldl register (.new options memory)

omit [DecidableEq K] in
theorem ofHandlers_eq (handlers : List (Handler K M)) (options : ParserOptions) (memory : M) :
    ofHandlers handlers options memory =
      { handlers := handlers.toArray, state := .fresh options, memory := memory } := by
  have hfold (parser : Parser K M) : handlers.foldl register parser =
      { parser with handlers := parser.handlers ++ handlers.toArray } := by
    induction handlers generalizing parser with
    | nil => simp
    | cons handler handlers ih =>
      rw [List.foldl_cons, ih, register]
      simp
  rw [ofHandlers, hfold]
  simp [new]

theorem calls_cons (parser : Parser K M) (call : Call) (rest : List Call) :
    parser.calls (call :: rest) =
      ((call, (parser.call call).1) :: ((parser.call call).2.calls rest).1,
        ((parser.call call).2.calls rest).2) := rfl

/-- All calls are in the history, in order. -/
theorem map_fst_calls (parser : Parser K M) (calls : List Call) :
    (parser.calls calls).1.map (·.1) = calls := by
  induction calls generalizing parser with
  | nil => rfl
  | cons call calls ih => rw [calls_cons, List.map_cons, ih]

theorem calls_append (parser : Parser K M) (earlier later : List Call) :
    parser.calls (earlier ++ later) =
      ((parser.calls earlier).1 ++ ((parser.calls earlier).2.calls later).1,
        ((parser.calls earlier).2.calls later).2) := by
  induction earlier generalizing parser with
  | nil => rfl
  | cons call earlier ih => rw [List.cons_append, calls_cons, ih, calls_cons, List.cons_append]

/-- The last reply is that to the last call. -/
theorem getLast?_calls_concat (parser : Parser K M) (earlier : List Call) (call : Call) :
    (parser.calls (earlier ++ [call])).1.getLast? =
      some (call, ((parser.calls earlier).2.call call).1) := by
  rw [calls_append]
  exact List.getLast?_concat

theorem exists_of_getLast?_calls {parser : Parser K M} {calls : List Call} {call : Call}
    {reply : Reply K} (h : (parser.calls calls).1.getLast? = some (call, reply)) :
    ∃ earlier, (parser.calls calls).2 = ((parser.calls earlier).2.call call).2 ∧
      reply = ((parser.calls earlier).2.call call).1 := by
  rcases List.eq_nil_or_concat calls with rfl | ⟨earlier, last, rfl⟩
  · cases h
  · rw [List.concat_eq_append, getLast?_calls_concat] at h
    cases h
    refine ⟨earlier, ?_, rfl⟩
    rw [List.concat_eq_append, calls_append]
    rfl

/-! ### What a finish and a parse come to -/

omit [DecidableEq K] in
/-- **A finish hands over the document and starts afresh**, or it leaves all as it is but for the
poison. -/
theorem finish_cases (parser : Parser K M) :
    (∃ document, finishState parser.state = .ok document ∧ parser.finish =
      (.ok document, { parser with state := .fresh parser.state.options, poisoned := false })) ∨
    ∃ stop poisoned, parser.finish = (.error stop, { parser with poisoned := poisoned }) := by
  rw [finish, guard]
  split
  · exact .inr ⟨_, parser.poisoned, rfl⟩
  · cases hstate : finishState parser.state with
    | ok document => exact .inl ⟨document, rfl, rfl⟩
    | error stop => exact .inr ⟨stop, _, rfl⟩

/-- **A parse is a feed and a finish**, or only the feed if that fails. -/
theorem parse_cases (parser : Parser K M) (text : String) :
    parser.parse text = (parser.feed text).2.finish ∨
    ∃ stop, (parser.feed text).1 = .error stop ∧
      parser.parse text = (.error stop, (parser.feed text).2) := by
  rw [parse]
  generalize parser.feed text = result
  obtain ⟨outcome, next⟩ := result
  cases outcome with
  | ok value => exact .inl rfl
  | error stop => exact .inr ⟨stop, rfl, rfl⟩

/-! ## Poison -/

section Poison

variable {parser : Parser K M}

/-- What a poisoned parser replies. -/
def refusal {α : Type} (parser : Parser K M) : Except (ParseStop K) α :=
  .error (.failed (parser.state.error .poisoned))

omit [DecidableEq K] in
theorem guard_of_poisoned {α : Type} (h : parser.poisoned = true)
    (work : ParseState K → M → Outcome K M α) : parser.guard work = (parser.refusal, parser) := by
  rw [guard, if_pos h]
  rfl

omit [DecidableEq K] in
/-- Work poisons a parser exactly if it fails. -/
theorem poisoned_guard_iff {α : Type} (work : ParseState K → M → Outcome K M α) :
    (parser.guard work).2.poisoned = true ↔ ∃ error, (parser.guard work).1 = .error (.failed error) := by
  cases hpoisoned : parser.poisoned with
  | true =>
    rw [guard_of_poisoned hpoisoned]
    exact iff_of_true hpoisoned ⟨_, rfl⟩
  | false =>
    rw [guard, hpoisoned]
    cases hwork : (work parser.state parser.memory).result with
    | ok value => simp [hwork]
    | error stop => cases stop <;> simp [hwork]

theorem poisoned_feed_iff (chunk : String) :
    (parser.feed chunk).2.poisoned = true ↔
      ∃ error, (parser.feed chunk).1 = .error (.failed error) :=
  poisoned_guard_iff _

omit [DecidableEq K] in
theorem poisoned_finish_iff :
    parser.finish.2.poisoned = true ↔ ∃ error, parser.finish.1 = .error (.failed error) :=
  poisoned_guard_iff _

theorem feed_of_poisoned (h : parser.poisoned = true) (chunk : String) :
    parser.feed chunk = (parser.refusal, parser) :=
  guard_of_poisoned h _

omit [DecidableEq K] in
theorem finish_of_poisoned (h : parser.poisoned = true) :
    parser.finish = (parser.refusal, parser) :=
  guard_of_poisoned h _

theorem parse_of_poisoned (h : parser.poisoned = true) (text : String) :
    parser.parse text = (parser.refusal, parser) := by
  rw [parse, feed_of_poisoned h]
  rfl

/-- **A poisoned parser refuses everything but a reset**, and stays as it is. -/
theorem call_of_poisoned (h : parser.poisoned = true) {call : Call} (hcall : call ≠ .reset) :
    parser.call call = (parser.refusal, parser) := by
  cases call with
  | feed chunk => rw [Parser.call, feed_of_poisoned h]; rfl
  | finish => rw [Parser.call, finish_of_poisoned h]; rfl
  | parse text => rw [Parser.call, parse_of_poisoned h]; rfl
  | reset => exact absurd rfl hcall

theorem poisoned_parse_iff (text : String) :
    (parser.parse text).2.poisoned = true ↔
      ∃ error, (parser.parse text).1 = .error (.failed error) := by
  rcases parser.parse_cases text with hparse | ⟨stop, hfeed, hparse⟩
  · rw [hparse]
    exact poisoned_finish_iff
  · rw [hparse, poisoned_feed_iff text, hfeed]
    simp

/-- **A call leaves a poisoned parser exactly if it fails.** -/
theorem poisoned_call_iff (parser : Parser K M) (call : Call) :
    (parser.call call).2.poisoned = true ↔ (parser.call call).1.Failed := by
  have hmap {α : Type} (f : α → Option (Document K)) (result : Except (ParseStop K) α) :
      Reply.Failed (result.map f) ↔ ∃ error, result = .error (.failed error) := by
    cases result <;> simp [Reply.Failed, Except.map]
  cases call with
  | feed chunk => exact (poisoned_feed_iff chunk).trans (hmap _ _).symm
  | finish => exact poisoned_finish_iff.trans (hmap _ _).symm
  | parse text => exact (poisoned_parse_iff text).trans (hmap _ _).symm
  | reset => exact iff_of_false Bool.false_ne_true fun ⟨_, h⟩ => by cases h

/-- A call failed, and there was no reset after it. -/
def FailedSinceReset (history : List (Call × Reply K)) : Prop :=
  ∃ before call reply after, history = before ++ (call, reply) :: after ∧ reply.Failed ∧
    ∀ entry ∈ after, entry.1 ≠ .reset

/-- **After some calls a parser is poisoned exactly if one of them failed** and no reset came after
that, or if it was poisoned before and there was no reset at all. -/
theorem poisoned_calls_iff (parser : Parser K M) (calls : List Call) :
    (parser.calls calls).2.poisoned = true ↔ FailedSinceReset (parser.calls calls).1 ∨
      parser.poisoned = true ∧ ∀ call ∈ calls, call ≠ .reset := by
  induction calls generalizing parser with
  | nil => simp [calls, FailedSinceReset]
  | cons call calls ih =>
    have hlater : (∀ entry ∈ ((parser.call call).2.calls calls).1, entry.1 ≠ .reset) ↔
        ∀ call ∈ calls, call ≠ .reset := by
      rw [← List.forall_mem_map (P := (· ≠ Call.reset)), map_fst_calls]
    rw [calls_cons, ih, poisoned_call_iff]
    constructor
    · rintro (⟨before, failed, reply, after, hsplit, hfailed, hafter⟩ | ⟨hfailed, hcalls⟩)
      · exact .inl ⟨_ :: before, failed, reply, after, congrArg _ hsplit, hfailed, hafter⟩
      · exact .inl ⟨[], call, _, _, rfl, hfailed, hlater.2 hcalls⟩
    · rintro (⟨before, failed, reply, after, hsplit, hfailed, hafter⟩ | ⟨hpoisoned, hcalls⟩)
      · cases before with
        | nil =>
          cases hsplit
          exact .inr ⟨hfailed, hlater.1 hafter⟩
        | cons entry before =>
          obtain ⟨-, hsplit⟩ := List.cons.inj hsplit
          exact .inl ⟨before, failed, reply, after, hsplit, hfailed, hafter⟩
      · -- A poisoned parser refuses the first call, which is a failure as well.
        have hcall := call_of_poisoned hpoisoned (hcalls call List.mem_cons_self)
        refine .inr ⟨?_, fun other h => hcalls other (List.mem_cons_of_mem _ h)⟩
        rw [hcall]
        exact ⟨_, rfl⟩

end Poison

/-! ## Starting over -/

/-- A parser has the handlers and the options that another one has. -/
structure SameSetup (before after : Parser K M) : Prop where
  handlers : after.handlers = before.handlers
  options : after.state.options = before.state.options

/-- Nothing was read, nothing is to be read, and nothing has failed. -/
structure Blank (parser : Parser K M) : Prop where
  state : parser.state = .fresh parser.state.options
  clean : parser.poisoned = false

section Setup

variable {parser next last : Parser K M}

omit [DecidableEq K] in
theorem SameSetup.refl (parser : Parser K M) : parser.SameSetup parser := ⟨rfl, rfl⟩

omit [DecidableEq K] in
theorem SameSetup.trans (h : parser.SameSetup next) (hlast : next.SameSetup last) :
    parser.SameSetup last :=
  ⟨hlast.handlers.trans h.handlers, hlast.options.trans h.options⟩

theorem feed_sameSetup (parser : Parser K M) (chunk : String) :
    parser.SameSetup (parser.feed chunk).2 := by
  obtain ⟨_, hkeeps⟩ := parser.feed_keeps chunk
  refine ⟨?_, hkeeps.options⟩
  rw [feed, guard]
  split <;> rfl

omit [DecidableEq K] in
theorem finish_sameSetup (parser : Parser K M) : parser.SameSetup parser.finish.2 := by
  rcases parser.finish_cases with ⟨document, -, h⟩ | ⟨stop, poisoned, h⟩ <;>
    rw [h] <;> exact ⟨rfl, rfl⟩

theorem parse_sameSetup (parser : Parser K M) (text : String) :
    parser.SameSetup (parser.parse text).2 := by
  have hfeed := parser.feed_sameSetup text
  rcases parser.parse_cases text with hparse | ⟨stop, -, hparse⟩
  · rw [hparse]
    exact hfeed.trans (finish_sameSetup _)
  · rw [hparse]
    exact hfeed

theorem call_sameSetup (parser : Parser K M) (call : Call) :
    parser.SameSetup (parser.call call).2 := by
  cases call with
  | feed chunk => exact parser.feed_sameSetup chunk
  | finish => exact parser.finish_sameSetup
  | parse text => exact parser.parse_sameSetup text
  | reset => exact ⟨rfl, rfl⟩

/-- **No call changes the handlers or the options.** -/
theorem calls_sameSetup (parser : Parser K M) (calls : List Call) :
    parser.SameSetup (parser.calls calls).2 := by
  induction calls generalizing parser with
  | nil => exact .refl parser
  | cons call calls ih => exact (parser.call_sameSetup call).trans (ih _)

/-! ### The memory -/

/-- The middlewares of a parser keep no memory. -/
def Stateless (parser : Parser K M) : Prop :=
  ∀ program, Handler.middleware program ∈ parser.handlers.toList → program.Stateless

theorem Stateless.of_sameSetup (h : parser.Stateless) (same : parser.SameSetup next) :
    next.Stateless := by
  rw [Stateless, same.handlers]
  exact h

theorem memory_feed (stateless : parser.Stateless) (chunk : String) :
    (parser.feed chunk).2.memory = parser.memory := by
  have hkept : KeptBy parser.handlers.toList fun _ memory => memory = parser.memory := by
    intro handler hhandler state memory h
    have hstateless := handler.stateless fun program heq => stateless program (heq ▸ hhandler)
    exact (hstateless state memory).trans h
  rw [feed, guard]
  split
  · rfl
  · exact hkept.turns _ rfl

omit [DecidableEq K] in
theorem memory_finish (parser : Parser K M) : parser.finish.2.memory = parser.memory := by
  rcases parser.finish_cases with ⟨document, -, h⟩ | ⟨stop, poisoned, h⟩ <;> rw [h]

theorem memory_call (stateless : parser.Stateless) (call : Call) :
    (parser.call call).2.memory = parser.memory := by
  cases call with
  | feed chunk => exact memory_feed stateless chunk
  | finish => exact parser.memory_finish
  | parse text =>
    have hfeed := memory_feed stateless text
    show (parser.parse text).2.memory = _
    rcases parser.parse_cases text with hparse | ⟨stop, -, hparse⟩
    · rw [hparse]
      exact (memory_finish _).trans hfeed
    · rw [hparse]
      exact hfeed
  | reset => rfl

/-- **No call changes the memory** if the middlewares keep none. -/
theorem memory_calls (stateless : parser.Stateless) (calls : List Call) :
    (parser.calls calls).2.memory = parser.memory := by
  induction calls generalizing parser with
  | nil => rfl
  | cons call calls ih =>
    have hrest := ih (stateless.of_sameSetup (parser.call_sameSetup call))
    exact hrest.trans (memory_call stateless call)

/-! ### Blank parsers -/

omit [DecidableEq K] in
/-- A document leaves a blank parser behind. -/
theorem blank_finish {document : Document K} (h : parser.finish.1 = .ok document) :
    parser.finish.2.Blank := by
  rcases parser.finish_cases with ⟨other, -, hfinish⟩ | ⟨stop, poisoned, hfinish⟩
  · rw [hfinish]
    exact ⟨rfl, rfl⟩
  · rw [hfinish] at h
    cases h

theorem blank_parse {document : Document K} {text : String}
    (h : (parser.parse text).1 = .ok document) : (parser.parse text).2.Blank := by
  rcases parser.parse_cases text with hparse | ⟨stop, -, hparse⟩
  · rw [hparse] at h ⊢
    exact blank_finish h
  · rw [hparse] at h
    cases h

/-- **A reset and a document leave a blank parser behind.** -/
theorem blank_call {call : Call}
    (h : call = .reset ∨ ∃ document, (parser.call call).1 = .ok (some document)) :
    (parser.call call).2.Blank := by
  have hmap {α : Type} {f : α → Option (Document K)} {result : Except (ParseStop K) α}
      {document : Document K} (h : result.map f = .ok (some document)) :
      ∃ value, result = .ok value ∧ f value = some document := by
    cases result with
    | ok value => exact ⟨value, rfl, Except.ok.inj h⟩
    | error stop => cases h
  rcases h with rfl | ⟨document, h⟩
  · exact ⟨rfl, rfl⟩
  · cases call with
    | feed chunk =>
      obtain ⟨_, -, hnone⟩ := hmap h
      cases hnone
    | finish =>
      obtain ⟨_, hfinish, -⟩ := hmap h
      exact blank_finish hfinish
    | parse text =>
      obtain ⟨_, hparse, -⟩ := hmap h
      exact blank_parse hparse
    | reset => exact ⟨rfl, rfl⟩

omit [DecidableEq K] in
/-- A blank parser with the setup and the memory of a new one is a new one. -/
theorem Blank.eq_ofHandlers {handlers : List (Handler K M)} {options : ParserOptions} {memory : M}
    (blank : parser.Blank) (same : (ofHandlers handlers options memory).SameSetup parser)
    (hmemory : parser.memory = memory) : parser = ofHandlers handlers options memory := by
  rw [ofHandlers_eq] at same ⊢
  obtain ⟨table, state, stored, poisoned⟩ := parser
  obtain ⟨hhandlers, hoptions⟩ := same
  obtain ⟨hstate, hclean⟩ := blank
  dsimp only at *
  subst hhandlers hmemory hclean
  rw [hstate, hoptions]
  rfl

end Setup

/-! ## Invariants -/

section Kept

variable {P : ParseState K → Prop} {parser : Parser K M}

omit [DecidableEq K] in
theorem finish_kept (fresh : ∀ options, P (.fresh options)) (h : P parser.state) :
    P parser.finish.2.state := by
  rcases parser.finish_cases with ⟨document, -, hfinish⟩ | ⟨stop, poisoned, hfinish⟩
  · rw [hfinish]
    exact fresh _
  · rw [hfinish]
    exact h

theorem call_kept (kept : ParseState.Kept P) (fresh : ∀ options, P (.fresh options))
    (feed : ∀ state chunk, P state → P (state.feed chunk)) (h : P parser.state) (call : Call) :
    P (parser.call call).2.state := by
  cases call with
  | feed chunk => exact feed_kept kept h chunk (feed _ _)
  | finish => exact finish_kept fresh h
  | parse text =>
    have hfed := feed_kept kept h text (feed _ _)
    show P (parser.parse text).2.state
    rcases parser.parse_cases text with hparse | ⟨stop, -, hparse⟩
    · rw [hparse]
      exact finish_kept fresh hfed
    · rw [hparse]
      exact hfed
  | reset => exact fresh _

/-- **What holds of a fresh state and is kept by every operation and by adding text** holds after
any calls. -/
theorem calls_kept (kept : ParseState.Kept P) (fresh : ∀ options, P (.fresh options))
    (feed : ∀ state chunk, P state → P (state.feed chunk)) (h : P parser.state)
    (calls : List Call) : P (parser.calls calls).2.state := by
  induction calls generalizing parser with
  | nil => exact h
  | cons call calls ih => exact ih (call_kept kept fresh feed h call)

/-- A new parser has a fresh state. -/
theorem calls_ofHandlers_kept (kept : ParseState.Kept P) (fresh : ∀ options, P (.fresh options))
    (feed : ∀ state chunk, P state → P (state.feed chunk)) (handlers : List (Handler K M))
    (options : ParserOptions) (memory : M) (calls : List Call) :
    P ((ofHandlers handlers options memory).calls calls).2.state := by
  refine calls_kept kept fresh feed ?_ calls
  rw [ofHandlers_eq]
  exact fresh options

/-- A call hands over the document of a state that keeps what every operation keeps. -/
theorem exists_finishState_of_call (kept : ParseState.Kept P)
    (feed : ∀ state chunk, P state → P (state.feed chunk)) (h : P parser.state) {call : Call}
    {document : Document K} (reply : (parser.call call).1 = .ok (some document)) :
    ∃ state, P state ∧ finishState state = .ok document := by
  have hfinish {other : Parser K M} (h : P other.state)
      (reply : Except.map some other.finish.1 = .ok (some document)) :
      ∃ state, P state ∧ finishState state = .ok document := by
    rcases other.finish_cases with ⟨found, hfound, heq⟩ | ⟨stop, poisoned, heq⟩ <;>
      rw [heq] at reply <;> cases reply
    exact ⟨other.state, h, hfound⟩
  cases call with
  | feed chunk =>
    change Except.map (fun _ => none) (parser.feed chunk).1 = _ at reply
    cases hfeed : (parser.feed chunk).1 <;> rw [hfeed] at reply <;> cases reply
  | finish => exact hfinish h reply
  | parse text =>
    change Except.map some (parser.parse text).1 = _ at reply
    rcases parser.parse_cases text with hparse | ⟨stop, -, hparse⟩
    · rw [hparse] at reply
      exact hfinish (feed_kept kept h text (feed _ _)) reply
    · rw [hparse] at reply
      cases reply
  | reset => cases reply

/-- **The documents in the replies of a new parser** are those of states that keep what every
operation keeps. -/
theorem exists_finishState_of_calls (kept : ParseState.Kept P)
    (fresh : ∀ options, P (.fresh options))
    (feed : ∀ state chunk, P state → P (state.feed chunk)) {handlers : List (Handler K M)}
    {options : ParserOptions} {memory : M} {calls : List Call} {call : Call}
    {document : Document K}
    (reply : (call, .ok (some document)) ∈ ((ofHandlers handlers options memory).calls calls).1) :
    ∃ state, P state ∧ finishState state = .ok document := by
  have hnew : P (ofHandlers handlers options memory).state := by
    rw [ofHandlers_eq]
    exact fresh options
  generalize ofHandlers handlers options memory = parser at reply hnew
  induction calls generalizing parser with
  | nil => cases reply
  | cons first calls ih =>
    rw [calls_cons] at reply
    rcases List.mem_cons.1 reply with hfirst | hrest
    · exact exists_finishState_of_call kept feed hnew (Prod.mk.inj hfirst).2.symm
    · exact ih _ hrest (call_kept kept fresh feed hnew first)

end Kept

/-! ## The life cycle -/

/-- **The life of a parser**, from when it was made and through any calls.

It is poisoned exactly if a call has failed since it was made or last reset. While it is poisoned,
it refuses to be fed, to finish and to parse, and all that it holds stays the same. After a reset
and after each document it does whatever a new parser with its handlers and its options does, if
its middlewares keep no memory. -/
theorem calls_lifeCycle (handlers : List (Handler K M)) (options : ParserOptions) (memory : M)
    (calls : List Call) :
    let new := ofHandlers handlers options memory
    let history := (new.calls calls).1
    let parser := (new.calls calls).2
    (parser.poisoned = true ↔ FailedSinceReset history) ∧
    (parser.poisoned = true →
      (∀ chunk, parser.feed chunk =
        (.error (.failed (.at .poisoned parser.state.label parser.state.location)), parser)) ∧
      parser.finish =
        (.error (.failed (.at .poisoned parser.state.label parser.state.location)), parser) ∧
      ∀ text, parser.parse text =
        (.error (.failed (.at .poisoned parser.state.label parser.state.location)), parser)) ∧
    ((∀ program, Handler.middleware program ∈ handlers → program.Stateless) →
      ∀ call reply, history.getLast? = some (call, reply) →
        (call = .reset ∨ ∃ document, reply = .ok (some document)) →
        ∀ more, parser.calls more = new.calls more) := by
  intro new history parser
  have hclean : new.poisoned = false := congrArg Parser.poisoned (ofHandlers_eq ..)
  refine ⟨?_, fun h => ⟨feed_of_poisoned h, finish_of_poisoned h, parse_of_poisoned h⟩, ?_⟩
  · rw [poisoned_calls_iff, hclean]
    simp [history]
  · intro stateless call reply hlast hnew more
    have hstateless : new.Stateless := by
      rw [Stateless, show new.handlers = handlers.toArray from congrArg _ (ofHandlers_eq ..)]
      exact stateless
    obtain ⟨earlier, hparser, rfl⟩ := exists_of_getLast?_calls hlast
    have hblank : parser.Blank := by
      rw [show parser = _ from hparser]
      exact blank_call hnew
    have hmemory : parser.memory = memory :=
      (memory_calls hstateless calls).trans (congrArg Parser.memory (ofHandlers_eq ..))
    rw [hblank.eq_ofHandlers (new.calls_sameSetup calls) hmemory]

/-- A pattern with a parenthesis too many, calls that are refused after that, and a reset. -/
theorem calls_lifeCycle_unbalanced :
    let handlers : List (Handler Extglob.Kind Unit) := Extglob.handlers.toList
    let calls := [.feed "[!a]", .feed "b)c", .finish, .parse "d"]
    (∀ program, Handler.middleware program ∈ handlers → program.Stateless) ∧
    ((ofHandlers handlers {} ()).calls calls).2.poisoned = true ∧
    FailedSinceReset ((ofHandlers handlers {} ()).calls calls).1 ∧
    (∃ error, ((ofHandlers handlers {} ()).calls calls).2.feed "e" =
      (.error (.failed error), ((ofHandlers handlers {} ()).calls calls).2)) ∧
    ∀ more, ((ofHandlers handlers {} ()).calls (calls ++ [.reset])).2.calls more =
      (ofHandlers handlers {} ()).calls more := by
  intro handlers calls
  have hstateless : ∀ program, Handler.middleware program ∈ handlers → program.Stateless :=
    fun _ _ _ _ => rfl
  have hpoisoned : ((ofHandlers handlers {} ()).calls calls).2.poisoned = true := by decide +kernel
  obtain ⟨hfailed, hrefused, -⟩ := calls_lifeCycle handlers {} () calls
  obtain ⟨-, -, hrenewed⟩ := calls_lifeCycle handlers {} () (calls ++ [.reset])
  exact ⟨hstateless, hpoisoned, hfailed.1 hpoisoned, ⟨_, (hrefused hpoisoned).1 "e"⟩,
    hrenewed hstateless .reset _ (getLast?_calls_concat _ calls .reset) (.inl rfl)⟩

end Parser

end GlobTree
