import GlobTree.Parser.Basic
import GlobTree.Proofs.Parser.Growth
import GlobTree.Proofs.Regex.Anchored
import Mathlib.Data.List.Forall2
/-!
# The turns of a parser

A turn tries the handlers of a table in order, and the first one that moves the cursor ends it. The
lemmas here go from a single handler (`answers_capture`, `answers_opening`, `answers_closing`) to a
turn (`answers_turn`) and to all turns over a text (`Obeys.turns`): a table of handlers that cuts
texts in a certain way (`Obeys`) does what `Draft.scan` does with that cut.
-/

namespace GlobTree

variable {K M : Type} [DecidableEq K]

open ParseState

/-! ## Running programs -/

namespace Program

variable {α : Type}

theorem run_push {state state' : ParseState K} {kind : K} {start : Mark} {id : NodeId}
    (h : state.push? kind start = some (id, state')) (next : NodeId → Program K M α) (memory : M) :
    ((push kind start).bind next).run state memory = (next id).run state' memory := by
  obtain ⟨node, hnode, happend⟩ := Option.bind_eq_some_iff.1 h
  simp only [push, Program.node, bind, run, hnode, ofOption, happend]

theorem run_close {state state' : ParseState K} {kind : K} {start : Mark} {trail : Option String}
    {id : NodeId} (h : state.closeGroup? kind start trail = some (.ok id, state'))
    (next : NodeId → Program K M α) (memory : M) :
    ((close kind start trail).bind next).run state memory = (next id).run state' memory := by
  simp only [close, bind, run, h, ofExcept]

theorem run_close_error {state state' : ParseState K} {kind : K} {start : Mark}
    {trail : Option String} {error : ParseError K}
    (h : state.closeGroup? kind start trail = some (.error error, state'))
    (next : NodeId → Program K M α) (memory : M) :
    ((close kind start trail).bind next).run state memory =
      ⟨.error (.failed error), state', memory⟩ := by
  simp only [close, bind, run, h, ofExcept]

end Program

/-! ## Single handlers -/

/-- What comes of a run on a text `c :: cs`. It may find nothing to do and leave all as it is. Or
it deals with a piece of the text, and then the outcome is that of `Draft.put`. -/
def Answers {α : Type} (run : M → Outcome K M α) (idle acted : α) (state : ParseState K)
    (draft : Draft K) (c : Char) (cs : List Char) : Option (Use K × Nat) → Prop
  | none => ∀ memory, run memory = ⟨.ok idle, state, memory⟩
  | some (use, more) =>
    match draft.put state.options state.location use (c :: cs.take more) with
    | .ok next => ∃ state', state.Next (c :: cs.take more) (cs.drop more) next state' ∧
      ∀ memory, run memory = ⟨.ok acted, state', memory⟩
    | .error error => ∃ state', ∀ memory, run memory = ⟨.error (.failed error), state', memory⟩

section Handlers

variable {state : ParseState K} {draft : Draft K} {c : Char} {cs : List Char} {rule : Rule}
  {found : Option (Option String × Option String × Nat)}

omit [DecidableEq K] in
theorem split_of_remaining (text : state.remaining = c :: cs) (more : Nat) :
    state.remaining = (c :: cs.take more) ++ cs.drop more := by
  rw [text, List.cons_append, List.take_append_drop]

omit [DecidableEq K] in
theorem eat?_of_finds (text : state.remaining = c :: cs) {lead trail : Option String} {more : Nat}
    (finds : rule.Finds c cs (some (lead, trail, more))) :
    ∃ groups, state.eat? rule = some (some ⟨String.ofList (c :: cs.take more), lead, trail, groups⟩,
      state.past (c :: cs.take more) (cs.drop more) (split_of_remaining text more)) := by
  obtain ⟨groups, hfound⟩ := finds
  rw [← text] at hfound
  exact ⟨groups, eat?_of_some (split_of_remaining text more) hfound rfl⟩

/-- **What the rule of a token recognises is a token.** -/
theorem answers_capture (follows : state.Follows draft) (text : state.remaining = c :: cs)
    (finds : rule.Finds c cs found) (kind : K) :
    Answers ((Handler.capture kind rule : Handler K M).program.run state) () () state draft c cs
      (found.map fun (_, _, more) => (.token kind, more)) := by
  cases found with
  | none =>
    intro memory
    have heat : state.eat? rule = some (none, state) := eat?_of_none (text ▸ finds)
    simp only [Handler.program, Program.mark, Program.bind, Program.run, heat]
  | some found =>
    obtain ⟨lead, trail, more⟩ := found
    obtain ⟨groups, heat⟩ := eat?_of_finds text finds
    obtain ⟨id, state', hpush, hnext⟩ := push?_past follows (split_of_remaining text more) kind
    refine ⟨state', hnext, fun memory => ?_⟩
    simp only [Handler.program, Program.mark, Program.bind, Program.run, heat]
    rw [Program.run_push hpush, Program.run]

/-- **What the opening rule of a group recognises opens a group.** -/
theorem answers_opening (follows : state.Follows draft) (text : state.remaining = c :: cs)
    (finds : rule.Finds c cs found) (kind : K) :
    Answers ((Handler.opening kind rule : Handler K M).program.run state) () () state draft c cs
      (found.map fun (lead, _, more) => (.opening kind lead, more)) := by
  cases found with
  | none =>
    intro memory
    have heat : state.eat? rule = some (none, state) := eat?_of_none (text ▸ finds)
    simp only [Handler.program, Program.mark, Program.bind, Program.run, heat]
  | some found =>
    obtain ⟨lead, trail, more⟩ := found
    obtain ⟨groups, heat⟩ := eat?_of_finds text finds
    obtain ⟨id, state', hopen, hnext⟩ :=
      openGroup?_past follows (split_of_remaining text more) kind lead
    refine ⟨state', hnext, fun memory => ?_⟩
    simp only [Handler.program, Program.mark, Program.bind, Program.run, heat]
    rw [hopen]

/-- **What the closing rule of a group recognises closes the innermost group, if that is of the
right kind, and is an error if not.** -/
theorem answers_closing (follows : state.Follows draft) (text : state.remaining = c :: cs)
    (finds : rule.Finds c cs found) (kind : K) :
    Answers ((Handler.closing kind rule : Handler K M).program.run state) () () state draft c cs
      (found.map fun (_, trail, more) => (.closing kind trail, more)) := by
  cases found with
  | none =>
    intro memory
    have heat : state.eat? rule = some (none, state) := eat?_of_none (text ▸ finds)
    simp only [Handler.program, Program.mark, Program.bind, Program.run, heat]
  | some found =>
    obtain ⟨lead, trail, more⟩ := found
    obtain ⟨groups, heat⟩ := eat?_of_finds text finds
    have split := split_of_remaining text more
    show Answers _ _ _ _ _ _ _ (some (.closing kind trail, more))
    by_cases hkind : draft.innermost? = some kind
    · obtain ⟨id, state', hclose, hnext⟩ := closeGroup?_past follows split hkind trail
      simp only [Answers, Draft.put, if_pos hkind]
      refine ⟨state', hnext, fun memory => ?_⟩
      simp only [Handler.program, Program.mark, Program.bind, Program.run, heat]
      rw [Program.run_close hclose, Program.run]
    · have hclose := closeGroup?_past_of_ne follows split hkind trail
      simp only [Answers, Draft.put, if_neg hkind]
      refine ⟨state.past _ _ split, fun memory => ?_⟩
      simp only [Handler.program, Program.mark, Program.bind, Program.run, heat]
      rw [Program.run_close_error hclose]
      rfl

end Handlers

/-! ## Turns -/

/-- A piece of text moves the cursor. -/
theorem ParseState.Next.cursor_lt {state state' : ParseState K} {c : Char} {text rest : List Char}
    {draft : Draft K} (h : state.Next (c :: text) rest draft state') :
    state.cursor < state'.cursor := by
  have hcursor (state : ParseState K) : state.cursor = byteLength state.consumed :=
    state.reader.cursor_eq_byteLength_consumed
  have hc := c.utf8Size_pos
  rw [hcursor, hcursor, h.consumed, byteLength_append, byteLength_cons]
  omega

/-- **A turn ends with the first handler that finds a piece of text.** -/
theorem answers_turn {state : ParseState K} {draft : Draft K} {c : Char} {cs : List Char}
    {handlers : List (Handler K M)} {found : List (Option (Use K × Nat))}
    (h : List.Forall₂ (fun handler piece =>
      Answers (handler.program.run state) () () state draft c cs piece) handlers found) :
    Answers (Parser.turn state.cursor handlers state) false true state draft c cs
      (found.findSome? id) := by
  induction h with
  | nil => exact fun memory => rfl
  | @cons handler piece handlers found hfirst _ ih =>
    cases piece with
    | none =>
      have hsame (memory : M) : Parser.turn state.cursor (handler :: handlers) state memory =
          Parser.turn state.cursor handlers state memory := by
        rw [Parser.turn, hfirst memory]
        exact if_neg (Nat.lt_irrefl _)
      rw [funext hsame]
      exact ih
    | some piece =>
      obtain ⟨use, more⟩ := piece
      show Answers _ _ _ _ _ _ _ (some (use, more))
      simp only [Answers] at hfirst ⊢
      split at hfirst
      · obtain ⟨state', hnext, hrun⟩ := hfirst
        refine ⟨state', hnext, fun memory => ?_⟩
        rw [Parser.turn, hrun memory]
        exact if_pos hnext.cursor_lt
      · obtain ⟨state', hrun⟩ := hfirst
        refine ⟨state', fun memory => ?_⟩
        rw [Parser.turn, hrun memory]

/-- A table of handlers cuts texts in a given way, as long as the draft is sound, and it keeps the
draft sound. -/
structure Obeys (handlers : List (Handler K M)) (cut : Draft.Cut K) (sound : Draft K → Prop) :
    Prop where
  answers : ∀ {state : ParseState K} {draft : Draft K} {c : Char} {cs : List Char},
    state.Follows draft → sound draft → state.remaining = c :: cs →
    Answers (Parser.turn state.cursor handlers state) false true state draft c cs
      (cut draft.innermost? c cs)
  keeps : ∀ {draft next : Draft K} {options : ParserOptions} {place : Location} {c : Char}
    {cs : List Char} {use : Use K} {more : Nat}, sound draft →
    cut draft.innermost? c cs = some (use, more) →
    draft.put options place use (c :: cs.take more) = .ok next → sound next

/-- The states that come one after the other when pieces of text are dealt with. -/
theorem ParseState.Next.trans {state state₁ state₂ : ParseState K} {a b rest₁ rest₂ : List Char}
    {draft₁ draft₂ : Draft K} (h₁ : state.Next a rest₁ draft₁ state₁)
    (h₂ : state₁.Next b rest₂ draft₂ state₂) : state.Next (a ++ b) rest₂ draft₂ state₂ where
  follows := h₂.follows
  options := h₂.options.trans h₁.options
  remaining := h₂.remaining
  consumed := by rw [h₂.consumed, h₁.consumed, List.append_assoc]

theorem ParseState.Next.location {state state' : ParseState K} {text rest : List Char}
    {draft draft' : Draft K} (h : state.Next text rest draft' state')
    (follows : state.Follows draft) : state'.location = state.location.advance text := by
  rw [h.follows.location, h.consumed, Location.advance_append, follows.location]

/-- What comes of reading all the text that is left: the outcome of `Draft.scan`. -/
def Reads (run : M → Outcome K M Unit) (cut : Draft.Cut K) (sound : Draft K → Prop)
    (state : ParseState K) (draft : Draft K) : Prop :=
  match draft.scan cut state.options state.location state.remaining with
  | .ok (next, place) => sound next ∧ place = state.location.advance state.remaining ∧
    ∃ state', state.Next state.remaining [] next state' ∧
      ∀ memory, run memory = ⟨.ok (), state', memory⟩
  | .error error => ∃ state', ∀ memory, run memory = ⟨.error (.failed error), state', memory⟩

theorem reads_end {run : M → Outcome K M Unit} {cut : Draft.Cut K} {sound : Draft K → Prop}
    {state : ParseState K} {draft : Draft K} (text : state.remaining = [])
    (follows : state.Follows draft) (hsound : sound draft)
    (hrun : ∀ memory, run memory = ⟨.ok (), state, memory⟩) : Reads run cut sound state draft := by
  have hnext : state.Next [] [] draft state :=
    ⟨follows, rfl, text, (List.append_nil _).symm⟩
  rw [Reads, text, Draft.scan]
  exact ⟨hsound, (Location.advance_nil _).symm, state, hnext, hrun⟩

/-- **Reading on after a piece of text** that was dealt with. -/
theorem reads_next {run : M → Outcome K M Unit} {cut : Draft.Cut K} {sound : Draft K → Prop}
    {state state₁ : ParseState K} {draft next : Draft K} {c : Char} {cs : List Char} {use : Use K}
    {more : Nat} (text : state.remaining = c :: cs) (follows : state.Follows draft)
    (hcut : cut draft.innermost? c cs = some (use, more))
    (hput : draft.put state.options state.location use (c :: cs.take more) = .ok next)
    (hnext : state.Next (c :: cs.take more) (cs.drop more) next state₁)
    (hrest : Reads run cut sound state₁ next) : Reads run cut sound state draft := by
  have hraw : (c :: cs.take more) ++ cs.drop more = c :: cs := by
    rw [List.cons_append, List.take_append_drop]
  rw [Reads, hnext.options, hnext.location follows, hnext.remaining] at hrest
  rw [Reads, text, Draft.scan]
  simp only [hcut, hput]
  cases hscan : next.scan cut state.options (state.location.advance (c :: cs.take more))
      (cs.drop more) with
  | error error =>
    rw [hscan] at hrest
    exact hrest
  | ok result =>
    rw [hscan] at hrest
    obtain ⟨hsound, hplace, state', hnext', hrun⟩ := hrest
    have htrans := hnext.trans hnext'
    rw [hraw] at htrans
    refine ⟨hsound, ?_, state', htrans, hrun⟩
    rw [hplace, ← Location.advance_append, hraw]

/-- **All turns over a text do what scanning it does.** -/
theorem Obeys.turns {handlers : List (Handler K M)} {cut : Draft.Cut K} {sound : Draft K → Prop}
    (obeys : Obeys handlers cut sound) {n : Nat} {state : ParseState K} {draft : Draft K}
    (enough : state.remaining.length ≤ n) (follows : state.Follows draft) (hsound : sound draft) :
    Reads (Parser.turns handlers n state) cut sound state draft := by
  induction n generalizing state draft with
  | zero =>
    have text : state.remaining = [] := List.length_eq_zero_iff.1 (Nat.le_zero.1 enough)
    exact reads_end text follows hsound fun memory => rfl
  | succ n ih =>
    cases text : state.remaining with
    | nil =>
      have hend : state.atEnd = true := List.isEmpty_iff.2 text
      refine reads_end text follows hsound fun memory => ?_
      rw [Parser.turns, if_pos hend]
    | cons c cs =>
      have hend : ¬ state.atEnd = true := by
        rw [atEnd, Reader.atEnd, List.isEmpty_iff]
        exact fun h => List.cons_ne_nil c cs (text.symm.trans h)
      have hanswers := obeys.answers follows hsound text
      cases hcut : cut draft.innermost? c cs with
      | none =>
        rw [hcut] at hanswers
        have hpeek : state.peek? = some c := by
          show state.remaining.head? = some c
          rw [text]
          rfl
        rw [Reads, text, Draft.scan, hcut]
        refine ⟨state, fun memory => ?_⟩
        rw [Parser.turns, if_neg hend, hanswers memory]
        simp only [hpeek]
        rfl
      | some piece =>
        obtain ⟨use, more⟩ := piece
        rw [hcut] at hanswers
        simp only [Answers] at hanswers
        cases hput : draft.put state.options state.location use (c :: cs.take more) with
        | error error =>
          rw [hput] at hanswers
          obtain ⟨state', hrun⟩ := hanswers
          rw [Reads, text, Draft.scan]
          simp only [hcut, hput]
          refine ⟨state', fun memory => ?_⟩
          rw [Parser.turns, if_neg hend, hrun memory]
        | ok next =>
          rw [hput] at hanswers
          obtain ⟨state₁, hnext, hrun⟩ := hanswers
          have hlength : state₁.remaining.length ≤ n := by
            rw [text, List.length_cons] at enough
            rw [hnext.remaining, List.length_drop]
            omega
          have hturns : Parser.turns handlers (n + 1) state = Parser.turns handlers n state₁ := by
            funext memory
            rw [Parser.turns, if_neg hend, hrun memory]
          rw [hturns]
          exact reads_next text follows hcut hput hnext
            (ih hlength hnext.follows (obeys.keeps hsound hcut hput))

end GlobTree
