import GlobTree.Proofs.Cursor
import GlobTree.Proofs.Extglob.Cut
import GlobTree.Proofs.Parser.History
import GlobTree.Proofs.Parser.Progress
import GlobTree.Proofs.Parser.Table
import Mathlib.Data.Fin.VecNotation
import Mathlib.Logic.Equiv.Defs
/-!
# The order of registrations

What is registered first with a parser comes first. This matters only between registrations that
overlap, which means that there is a text at whose head both recognise something. If two tables have
the same registrations and those that overlap stand in the same order (`Table.Rearranges`), then no
call on a parser tells the tables apart (`Parser.calls_rearranged`).

* A handler whose rule recognises nothing leaves everything as it is, and one whose rule recognises
  something moves the cursor or ends the turn. So a turn is that of the first handler whose rule
  recognises something (`Parser.turn_of_rules`).
* This handler is the same in both tables, although others may stand in front of it
  (`Table.Rearranges.find?_eq`).
* Two parsers whose turns are the same stay in lock step through all calls (`Parser.SameTurns.calls`).
-/

namespace GlobTree

variable {K M : Type}

/-! ## Turns of handlers with rules -/

namespace Handler

/-- The rule of a handler, which a program has none of. -/
def rule? : Handler K M → Option Rule
  | .capture _ rule | .opening _ rule | .closing _ rule => some rule
  | .middleware _ => none

/-- The rule of a handler recognises something in a text. -/
def recognises (handler : Handler K M) (text : List Char) : Bool :=
  handler.rule?.any fun rule => (rule.matchHead text).isSome

variable [DecidableEq K] {handler : Handler K M} {rule : Rule}

/-- A handler reads with its rule first, and acts on what that recognises. -/
theorem exists_act (h : handler.rule? = some rule) :
    ∃ act : Mark → RuleMatch → Program K M Unit, ∀ state memory,
      handler.program.run state memory =
        match state.eat? rule with
        | some (some found, moved) => (act state.mark found).run moved memory
        | some (none, same) => ⟨.ok (), same, memory⟩
        | none => ⟨.error .outOfBounds, state, memory⟩ := by
  cases handler with
  | middleware program => cases h
  | capture kind rule =>
    cases h
    refine ⟨fun start _ => (Program.push kind start).bind fun _ => .pure (), fun state memory => ?_⟩
    rw [program, Program.mark, Program.bind, Program.run, Program.bind, Program.run]
    rcases state.eat? rule with _ | ⟨_ | found, moved⟩ <;> rfl
  | opening kind rule =>
    cases h
    refine ⟨fun start found => .openGroup kind start found.lead fun _ => .pure (),
      fun state memory => ?_⟩
    rw [program, Program.mark, Program.bind, Program.run, Program.bind, Program.run]
    rcases state.eat? rule with _ | ⟨_ | found, moved⟩ <;> rfl
  | closing kind rule =>
    cases h
    refine ⟨fun start found => (Program.close kind start found.trail).bind fun _ => .pure (),
      fun state memory => ?_⟩
    rw [program, Program.mark, Program.bind, Program.run, Program.bind, Program.run]
    rcases state.eat? rule with _ | ⟨_ | found, moved⟩ <;> rfl

/-- **A handler whose rule recognises nothing** leaves everything as it is. -/
theorem run_of_recognises_false (h : handler.rule? = some rule) {state : ParseState K}
    (hnothing : handler.recognises state.remaining = false) (memory : M) :
    handler.program.run state memory = ⟨.ok (), state, memory⟩ := by
  obtain ⟨act, hact⟩ := exists_act h
  have hrule : rule.matchHead state.remaining = none := by simpa [recognises, h] using hnothing
  rw [hact, ParseState.eat?_of_none hrule]

/-- **A handler whose rule recognises something** moves the cursor, unless it stops the parse. -/
theorem cursor_lt_of_recognises (h : handler.rule? = some rule) {state next : ParseState K}
    {memory stored : M} (hfound : handler.recognises state.remaining = true)
    (hrun : handler.program.run state memory = ⟨.ok (), next, stored⟩) :
    state.cursor < next.cursor := by
  obtain ⟨act, hact⟩ := exists_act h
  obtain ⟨found, hmatch⟩ : ∃ found, rule.matchHead state.remaining = some found :=
    Option.isSome_iff_exists.1 (by simpa [recognises, h] using hfound)
  rw [hact] at hrun
  cases heat : state.eat? rule with
  | none =>
    rw [heat] at hrun
    cases hrun
  | some result =>
    obtain ⟨found', moved⟩ := result
    have hsame : found' = some found := by
      rw [ParseState.eat?, hmatch] at heat
      obtain ⟨_, -, heq⟩ := Option.map_eq_some_iff.1 heat
      exact (Prod.mk.inj heq).1.symm
    subst hsame
    -- What is done after reading can only read on.
    obtain ⟨piece, hreads⟩ := (act state.mark found).exists_readsTo moved memory
    simp only [heat] at hrun
    rw [hrun] at hreads
    have hread := Rule.cursor_of_eat? heat
    have hfurther : next.cursor = moved.cursor + byteLength piece := hreads.cursor
    have hsize : 0 < found.size := by
      obtain ⟨-, -, -, hne⟩ := Rule.exists_of_matchHead hmatch
      obtain ⟨c, cs, htext⟩ := List.exists_cons_of_ne_nil hne
      have hlength := byteLength_toList found.text
      rw [htext, byteLength_cons] at hlength
      have hc := c.utf8Size_pos
      rw [RuleMatch.size, ← hlength]
      omega
    omega

end Handler

namespace Parser

variable [DecidableEq K]

/-- **A turn of handlers with rules** is that of the first one whose rule recognises something. -/
theorem turn_of_rules {handlers : List (Handler K M)}
    (rules : ∀ handler ∈ handlers, handler.rule?.isSome) (state : ParseState K) (memory : M) :
    turn state.cursor handlers state memory =
      turn state.cursor (handlers.find? (·.recognises state.remaining)).toList state memory := by
  induction handlers with
  | nil => rfl
  | cons handler handlers ih =>
    obtain ⟨hrule, hrules⟩ := List.forall_mem_cons.1 rules
    obtain ⟨rule, hrule⟩ := Option.isSome_iff_exists.1 hrule
    cases hfound : handler.recognises state.remaining with
    | false =>
      have hidle := Handler.run_of_recognises_false hrule hfound memory
      rw [List.find?_cons, hfound, ← ih hrules, turn, hidle]
      simp
    | true =>
      rw [List.find?_cons, hfound, Option.toList_some, turn, turn]
      cases hrun : handler.program.run state memory with
      | mk result next stored =>
        cases result with
        | error stop => rfl
        | ok value =>
          have hmoved := Handler.cursor_lt_of_recognises hrule hfound hrun
          simp only [if_pos hmoved]

end Parser

/-! ## Rearranged tables -/

namespace Registration

/-- A rule of a registration recognises something in a text. -/
def recognises (registration : Registration K) (text : List Char) : Bool :=
  registration.clauses.any fun clause => (clause.rule.matchHead text).isSome

/-- There is a text in which two registrations both recognise something. -/
def Overlaps (one other : Registration K) : Prop :=
  ∃ text, one.recognises text = true ∧ other.recognises text = true

theorem isSome_find?_handlers (registration : Registration K) (text : List Char) :
    ((registration.handlers : List (Handler K M)).find? (·.recognises text)).isSome =
      registration.recognises text := by
  rw [Bool.eq_iff_iff, List.find?_isSome]
  cases registration <;> simp [handlers, recognises, clauses, Handler.recognises, Handler.rule?]

theorem rule?_isSome {registration : Registration K} {handler : Handler K M}
    (h : handler ∈ registration.handlers) : handler.rule?.isSome := by
  cases registration with
  | capture kind rule =>
    obtain rfl := List.mem_singleton.1 h
    rfl
  | pair kind opening closing => rcases List.mem_pair.1 h with rfl | rfl <;> rfl

end Registration

namespace Table

/-- All handlers of a table have rules. -/
theorem rule?_isSome (table : Table K) :
    ∀ handler ∈ table.flatMap (Registration.handlers (M := M)), handler.rule?.isSome := by
  intro handler hmem
  obtain ⟨registration, -, hhandler⟩ := List.mem_flatMap.1 hmem
  exact Registration.rule?_isSome hhandler

/-- A table has the registrations of another one in different places, but those that overlap stand
in the same order. -/
structure Rearranges (before after : Table K) (place : Fin before.length ≃ Fin after.length) :
    Prop where
  same : ∀ i, after.get (place i) = before.get i
  order : ∀ i j, i < j → (before.get i).Overlaps (before.get j) → place i < place j

variable {before after : Table K} {place : Fin before.length ≃ Fin after.length}

/-- The first registration that recognises something in a text is the same in both tables. -/
theorem Rearranges.find?_eq (h : before.Rearranges after place) (text : List Char) :
    after.find? (·.recognises text) = before.find? (·.recognises text) := by
  cases hfind : before.find? (·.recognises text) with
  | none =>
    rw [List.find?_eq_none] at hfind ⊢
    intro registration hmem
    obtain ⟨k, rfl⟩ := List.get_of_mem hmem
    obtain ⟨i, rfl⟩ := place.surjective k
    rw [h.same]
    exact hfind _ (List.get_mem before i)
  | some registration =>
    obtain ⟨hfound, i, hi, rfl, hfirst⟩ := List.find?_eq_some_iff_getElem.1 hfind
    refine List.find?_eq_some_iff_getElem.2
      ⟨hfound, place ⟨i, hi⟩, (place ⟨i, hi⟩).2, h.same ⟨i, hi⟩, fun k hk => ?_⟩
    -- Were there one in front that recognises something, it would overlap with the first one.
    by_contra hbefore
    obtain ⟨j, hj⟩ := place.surjective ⟨k, hk.trans (place ⟨i, hi⟩).2⟩
    have hother : (before.get j).recognises text = true := by
      rw [← h.same j, hj]
      simpa using hbefore
    rcases Nat.lt_trichotomy i j with hlt | heq | hgt
    · have hlater := h.order ⟨i, hi⟩ j hlt ⟨text, hfound, hother⟩
      rw [hj] at hlater
      exact absurd hk (Nat.lt_asymm hlater)
    · obtain rfl : j = ⟨i, hi⟩ := Fin.ext heq.symm
      rw [hj] at hk
      exact absurd hk (Nat.lt_irrefl _)
    · have hnothing := hfirst j hgt
      rw [Bool.not_eq_true', ← List.get_eq_getElem, hother] at hnothing
      cases hnothing

/-- What is found first is found by the first registration that recognises something. -/
theorem find?_handlers (table : Table K) (text : List Char) :
    (table.flatMap (Registration.handlers (M := M))).find? (·.recognises text) =
      (table.find? (·.recognises text)).bind
        fun registration => registration.handlers.find? (·.recognises text) := by
  induction table with
  | nil => rfl
  | cons registration table ih =>
    have hfirst := registration.isSome_find?_handlers (M := M) text
    rw [List.flatMap_cons, List.find?_append, ih]
    cases hfound : registration.recognises text with
    | false =>
      rw [hfound, Option.isSome_eq_false_iff, Option.isNone_iff_eq_none] at hfirst
      rw [List.find?_cons, hfound, hfirst, Option.none_or]
    | true =>
      rw [hfound] at hfirst
      rw [List.find?_cons, hfound, Option.bind_some, Option.or_of_isSome hfirst]

end Table

/-! ## Two tables -/

section Signs

open Extglob

/-- Stars, alone and in pairs, commas, and parentheses with a sign in front or none. -/
def Table.signs : Table Extglob.Kind := [
  .capture .comma commaRule,
  .capture .globstar globstarRule,
  .pair .paren parenOpenRule parenCloseRule,
  .capture .star starRule]

/-- The same with the comma at the end and the parentheses at the head. A star still comes after
two stars and after the parentheses, which it overlaps with. -/
def Table.signsMoved : Table Extglob.Kind := [
  .pair .paren parenOpenRule parenCloseRule,
  .capture .globstar globstarRule,
  .capture .star starRule,
  .capture .comma commaRule]

/-- Where the registrations are moved to. -/
def Table.signsPlace : Fin 4 ≃ Fin 4 where
  toFun := ![3, 1, 0, 2]
  invFun := ![2, 1, 3, 0]
  left_inv i := by revert i; decide
  right_inv i := by revert i; decide

theorem Rule.Finds.isSome_matchHead {rule : Rule} {c : Char} {cs : List Char}
    {found : Option (Option String × Option String × Nat)} (h : rule.Finds c cs found) :
    (rule.matchHead (c :: cs)).isSome = found.isSome := by
  cases found with
  | none => exact congrArg Option.isSome h
  | some found =>
    obtain ⟨groups, hfound⟩ := h
    exact congrArg Option.isSome hfound

/-- What a registration recognises something in is not empty. -/
theorem Registration.exists_cons_of_recognises {registration : Registration K} {text : List Char}
    (h : registration.recognises text = true) : ∃ c cs, text = c :: cs := by
  obtain ⟨clause, -, hmatch⟩ := List.any_eq_true.1 h
  obtain ⟨found, hfound⟩ := Option.isSome_iff_exists.1 hmatch
  obtain ⟨-, -, -, hne⟩ := Rule.exists_of_matchHead hfound
  apply List.exists_cons_of_ne_nil
  rintro rfl
  exact hne (List.infix_nil.1 (Rule.infix_of_matchHead hfound))

theorem Table.rearranges_signs : Table.signs.Rearranges Table.signsMoved Table.signsPlace := by
  have hcomma (c : Char) (cs : List Char) :
      (Registration.capture Kind.comma commaRule).recognises (c :: cs) = true ↔ c = ',' := by
    have h : commaRule.Finds c cs _ := finds_char c cs "," ','
    simp [Registration.recognises, Registration.clauses, h.isSome_matchHead]
  have hglobstar (c : Char) (cs : List Char) :
      (Registration.capture Kind.globstar globstarRule).recognises (c :: cs) = true ↔
        c = '*' ∧ cs.head? = some '*' := by
    simp [Registration.recognises, Registration.clauses, (globstarRule_finds c cs).isSome_matchHead]
  have hstar (c : Char) (cs : List Char) :
      (Registration.capture Kind.star starRule).recognises (c :: cs) = true ↔ c = '*' := by
    have h : starRule.Finds c cs _ := finds_char c cs "\\*" '*'
    simp [Registration.recognises, Registration.clauses, h.isSome_matchHead]
  have hparen (c : Char) (cs : List Char) :
      (Registration.pair Kind.paren parenOpenRule parenCloseRule).recognises (c :: cs) = true ↔
        (isSign c = true ∧ cs.head? = some '(' ∨ c = '(') ∨ c = ')' := by
    have h : parenCloseRule.Finds c cs _ := finds_char c cs "\\)" ')'
    have hopen := (parenOpenRule_finds c cs).isSome_matchHead
    simp only [Registration.recognises, Registration.clauses, h.isSome_matchHead, hopen,
      List.any_cons, List.any_nil, Bool.or_eq_true]
    split <;> split <;> simp_all
  -- What changes its order is the comma and another one, or two stars and the parentheses.
  have hmoved : ∀ i j : Fin 4, i < j →
      signsPlace i < signsPlace j ∨ i = 0 ∧ j ≠ 0 ∨ i = 1 ∧ j = 2 := by decide
  have htail (cs : List Char) : ∀ j : Fin 4, j ≠ 0 → ¬ (signs.get j).recognises (',' :: cs) = true
    | 1, _ => by simp [signs, hglobstar]
    | 2, _ => by simp [signs, hparen, isSign]
    | 3, _ => by simp [signs, hstar]
  refine ⟨by decide +kernel, ?_⟩
  rintro (i : Fin 4) (j : Fin 4) (hlt : i < j) ⟨text, hone, hother⟩
  obtain ⟨c, cs, rfl⟩ := Registration.exists_cons_of_recognises hone
  rcases hmoved i j hlt with hplace | ⟨rfl, hj⟩ | ⟨rfl, rfl⟩
  · exact hplace
  · obtain rfl := (hcomma c cs).1 hone
    exact absurd hother (htail cs j hj)
  · obtain ⟨rfl, hnext⟩ := (hglobstar c cs).1 hone
    rcases (hparen '*' cs).1 hother with (⟨-, hopen⟩ | h) | h
    · rw [hnext] at hopen
      cases hopen
    all_goals cases h

end Signs

/-! ## Lock step -/

namespace Parser

variable [DecidableEq K]

/-- Two tables of handlers take the same turns. -/
def SameTurns (one other : List (Handler K M)) : Prop :=
  ∀ (state : ParseState K) (memory : M),
    turn state.cursor other state memory = turn state.cursor one state memory

/-- Tables without programs take the same turns if one rearranges the other. -/
theorem sameTurns_of_rearranges {before after : Table K}
    {place : Fin before.length ≃ Fin after.length} (h : before.Rearranges after place) :
    SameTurns (M := M) (before.flatMap Registration.handlers)
      (after.flatMap Registration.handlers) := by
  intro state memory
  rw [turn_of_rules after.rule?_isSome, turn_of_rules before.rule?_isSome, Table.find?_handlers,
    Table.find?_handlers, h.find?_eq]

/-- A parser with other handlers. -/
def withHandlers (parser : Parser K M) (handlers : Array (Handler K M)) : Parser K M :=
  { parser with handlers := handlers }

section LockStep

variable {parser : Parser K M} {handlers : Array (Handler K M)}

theorem SameTurns.turns {one other : List (Handler K M)} (h : SameTurns one other) (n : Nat)
    (state : ParseState K) (memory : M) :
    turns other n state memory = turns one n state memory := by
  induction n generalizing state memory with
  | zero => rfl
  | succ n ih =>
    rw [Parser.turns, Parser.turns, h state memory]
    split
    · rfl
    · split
      · exact ih _ _
      · rfl
      · rfl

omit [DecidableEq K] in
theorem guard_withHandlers {α : Type} (work : ParseState K → M → Outcome K M α) :
    (parser.withHandlers handlers).guard work =
      Prod.map id (·.withHandlers handlers) (parser.guard work) := by
  rw [guard, guard, withHandlers]
  split <;> rfl

theorem SameTurns.feed (h : SameTurns parser.handlers.toList handlers.toList) (chunk : String) :
    (parser.withHandlers handlers).feed chunk =
      Prod.map id (·.withHandlers handlers) (parser.feed chunk) := by
  rw [Parser.feed, Parser.feed, ← guard_withHandlers]
  congr 1
  funext state memory
  exact h.turns _ _ _

omit [DecidableEq K] in
theorem finish_withHandlers :
    (parser.withHandlers handlers).finish =
      Prod.map id (·.withHandlers handlers) parser.finish :=
  guard_withHandlers _

theorem SameTurns.call (h : SameTurns parser.handlers.toList handlers.toList) (call : Call) :
    (parser.withHandlers handlers).call call =
      Prod.map id (·.withHandlers handlers) (parser.call call) := by
  cases call with
  | feed chunk =>
    rw [Parser.call, Parser.call, h.feed]
    rfl
  | finish =>
    rw [Parser.call, Parser.call, finish_withHandlers]
    rfl
  | parse text =>
    rw [Parser.call, Parser.call, Parser.parse, Parser.parse, h.feed]
    cases hfeed : parser.feed text with
    | mk result next =>
      cases result with
      | error stop => rfl
      | ok value =>
        show Prod.map _ id (next.withHandlers handlers).finish = _
        rw [finish_withHandlers]
        rfl
  | reset => rfl

/-- **Parsers that take the same turns stay in lock step.** -/
theorem SameTurns.calls (h : SameTurns parser.handlers.toList handlers.toList)
    (calls : List Call) :
    (parser.withHandlers handlers).calls calls =
      Prod.map id (·.withHandlers handlers) (parser.calls calls) := by
  induction calls generalizing parser with
  | nil => rfl
  | cons call calls ih =>
    have hsetup := (parser.call_sameSetup call).handlers
    rw [calls_cons, calls_cons, h.call]
    have hrest := @ih (parser.call call).2 (by rwa [hsetup])
    simp only [Prod.map_fst, Prod.map_snd, id, hrest]
    rfl

end LockStep

/-- **The order of registrations matters between those that overlap only.** Let a table have the
registrations of another one, and let any two that recognise something in one and the same text
stand in the same order. Then the parsers with the two tables give the same replies to all calls,
documents and errors alike, and are in the same state after them. -/
theorem calls_rearranged {before after : Table K} {place : Fin before.length ≃ Fin after.length}
    (rearranges : before.Rearranges after place) (options : ParserOptions) (memory : M)
    (calls : List Call) :
    let one := (ofTable before options memory).calls calls
    let other := (ofTable after options memory).calls calls
    other.1 = one.1 ∧ other.2.state = one.2.state ∧ other.2.memory = one.2.memory ∧
      other.2.poisoned = one.2.poisoned := by
  intro one other
  have hparser : ofTable after options memory =
      (ofTable before options memory).withHandlers (ofTable after options memory).handlers := by
    rw [ofTable_eq before, ofTable_eq after]
    rfl
  have hturns : SameTurns (ofTable before options memory).handlers.toList
      (ofTable after options memory).handlers.toList := by
    rw [handlers_ofTable, handlers_ofTable]
    exact sameTurns_of_rearranges rearranges
  have hcalls : other =
      Prod.map id (·.withHandlers (ofTable after options memory).handlers) one := by
    rw [show other = _ from congrArg (Parser.calls · calls) hparser]
    exact hturns.calls calls
  rw [hcalls]
  exact ⟨rfl, rfl, rfl, rfl⟩

/-- A document in two chunks, a closing parenthesis too many, and a call that is refused after it. -/
theorem calls_rearranged_signs :
    let calls : List Call := [.feed "**,*(", .feed "*,)", .finish, .feed ")", .feed "*"]
    let one := (ofTable Table.signs {} ()).calls calls
    let other := (ofTable Table.signsMoved {} ()).calls calls
    Table.signs.Rearranges Table.signsMoved Table.signsPlace ∧
    one.1.map (fun entry => entry.2.isOk) = [true, true, true, false, false] ∧
    other.1 = one.1 ∧ other.2.state = one.2.state ∧ other.2.poisoned = true := by
  intro calls one other
  have hreplies : one.1.map (fun entry => entry.2.isOk) = [true, true, true, false, false] := by
    decide +kernel
  have hpoisoned : one.2.poisoned = true := by decide +kernel
  obtain ⟨hsame, hstate, -, hpoison⟩ := calls_rearranged Table.rearranges_signs {} () calls
  exact ⟨Table.rearranges_signs, hreplies, hsame, hstate, hpoison.trans hpoisoned⟩

end Parser

end GlobTree
