import GlobTree.Extglob.Basic
import GlobTree.Proofs.Extglob.Cut
import GlobTree.Proofs.Parser.Tiling
/-!
# The grammar as a scanner

The table of handlers for extended glob patterns, with its rules in order and its two programs, cuts
patterns as `Extglob.cut` says (`obeys_cut`). Parsing a pattern is then the same as scanning it
piece by piece with a stack of open groups (`parse_eq_scan`).

One thing has to be kept in mind on the way: the handler for text in brackets asks whether any
bracket is open, not whether the innermost group is one. Nothing can be opened inside of brackets,
so that there is no difference (`ne_bracket_of_linked`).
-/

namespace GlobTree.Extglob

open ParseState

variable {M : Type}

/-- What is written between quotes, and the text that it stands for. -/
inductive Quotes : List Char → List Char → Prop
  | nil : Quotes [] []
  /-- A backslash makes the next character stand for itself. -/
  | escaped (c : Char) {inside text : List Char} (rest : Quotes inside text) :
    Quotes ('\\' :: c :: inside) (c :: text)
  | plain {c : Char} (hc : c ≠ '\\') {inside text : List Char} (rest : Quotes inside text) :
    Quotes (c :: inside) (c :: text)

/-- The shape of an entry with its role. -/
def Shaped (entry : Entry Kind) : Prop :=
  match entry.role with
  | .root => False
  | .eos => True
  | .token .escape => ∃ c, entry.raw = String.ofList ['\\', c]
  | .token .quoted =>
    ∃ inside text, entry.raw = String.ofList ('"' :: (inside ++ ['"'])) ∧ Quotes inside text
  | .token kind => kind ∈ Kind.tokens
  | .group .paren => ∀ lead, entry.lead = some lead → ∃ c, isSign c ∧ lead = String.ofList [c]
  | .group kind | .opening kind | .closing kind => kind ∈ Kind.groups

theorem Shaped.mem_groups {entry : Entry Kind} (shaped : Shaped entry) {kind : Kind}
    (hrole : entry.role = .group kind) : kind ∈ Kind.groups := by
  rw [Shaped, hrole] at shaped
  cases kind with
  | paren => decide
  | _ => exact shaped

/-- What is known of an entry and the one above it: in brackets there are only texts, escapes and
the brackets themselves. -/
def Fits (above : Option (Entry Kind)) (entry : Entry Kind) : Prop :=
  Shaped entry ∧ ((∃ group ∈ above, group.role = .group .bracket) →
    entry.role ∈ [.token .text, .token .escape, .opening .bracket, .closing .bracket])

/-- An open bracket is always the innermost group. -/
theorem ne_bracket_of_linked {draft : Draft Kind} (linked : draft.Linked Fits) :
    ∀ level ∈ draft.zipper.outer.tail, level.label.role ≠ .group .bracket := by
  obtain ⟨⟨-, haround⟩, hopened⟩ := linked
  generalize draft.zipper.outer = outer at haround hopened
  induction outer with
  | nil => exact fun _ h => absurd h List.not_mem_nil
  | cons inner outer ih =>
    obtain ⟨hinner, -, haround⟩ := haround
    cases outer with
    | nil => exact fun _ h => absurd h List.not_mem_nil
    | cons head outer =>
      intro level hlevel hbracket
      rcases List.mem_cons.1 hlevel with rfl | hlevel
      · -- What is open in there is a group, and there are no groups in brackets.
        obtain ⟨kind, hkind⟩ := hopened inner List.mem_cons_self
        have hrole := hinner.2 ⟨level.label, rfl, hbracket⟩
        rw [hkind] at hrole
        simp at hrole
      · exact ih haround (fun other h => hopened other (List.mem_cons_of_mem _ h)) level hlevel
          hbracket

section Handlers

variable {state : ParseState Kind} {draft : Draft Kind} {c : Char} {cs : List Char}

theorem isInside_bracket (follows : state.Follows draft) (linked : draft.Linked Fits) :
    state.isInside .bracket = decide (draft.innermost? = some .bracket) := by
  have sound := ne_bracket_of_linked linked
  have hroles := follows.spine.roles
  rw [Bool.eq_iff_iff, follows.isInside_iff, decide_eq_true_eq, Draft.innermost?]
  cases houter : draft.zipper.outer with
  | nil => simp
  | cons level outer =>
    rw [houter, List.tail_cons] at sound
    rw [houter] at hroles
    cases hstack : state.nesting.stack with
    | nil => simp [hstack] at hroles
    | cons group stack =>
      rw [hstack, List.map_cons, List.map_cons, List.cons.injEq] at hroles
      obtain ⟨hrole, -⟩ := hroles
      constructor
      · rintro ⟨other, hother, hbracket⟩
        rcases List.mem_cons.1 hother with rfl | hother
        · rw [List.head?_cons, Option.bind_some, hbracket]
          rfl
        · exact absurd hbracket (sound other hother)
      · intro hkind
        rw [List.head?_cons, Option.bind_some, hrole, Role.kind?, Option.some.injEq] at hkind
        exact ⟨level, List.mem_cons_self, hkind ▸ hrole⟩

/-- The program for text in brackets is a capture, if a bracket is open. -/
theorem run_classText (state : ParseState Kind) (memory : M) :
    (classText : Program Kind M Unit).run state memory =
      if state.isInside .bracket then
        (Handler.capture .text classTextRule : Handler Kind M).program.run state memory
      else ⟨.ok (), state, memory⟩ := by
  cases h : state.isInside .bracket with
  | false =>
    simp only [classText, bind, Program.state, Program.bind, Program.run, h]
    rfl
  | true =>
    simp only [classText, bind, Program.state, Program.bind, Program.run, h, if_true,
      Handler.program, Program.mark, Program.tryEat]
    cases state.eat? classTextRule with
    | none => rfl
    | some result =>
      obtain ⟨found, state'⟩ := result
      cases found <;> rfl

theorem answers_classText (follows : state.Follows draft) (linked : draft.Linked Fits)
    (text : state.remaining = c :: cs) :
    Answers ((classText : Program Kind M Unit).run state) () () state draft c cs
      (if draft.innermost? = some .bracket ∧ isMember c then
        some (.token .text, (cs.takeWhile isMember).length)
      else none) := by
  have hrun := run_classText (M := M) state
  rw [isInside_bracket follows linked] at hrun
  by_cases hbracket : draft.innermost? = some .bracket
  · have hcapture := answers_capture (M := M) follows text (classTextRule_finds c cs) .text
    simp only [hbracket, decide_true, if_true] at hrun
    rw [funext hrun]
    by_cases hc : isMember c = true
    · rw [if_pos hc] at hcapture
      rwa [if_pos ⟨hbracket, hc⟩]
    · rw [if_neg hc] at hcapture
      rwa [if_neg fun h => hc h.2]
  · simp only [hbracket, decide_false, Bool.false_eq_true, if_false] at hrun
    rw [if_neg fun h => hbracket h.1]
    exact hrun

/-- The program for bars, once it has read one. -/
theorem run_pipe_some {state state' : ParseState Kind} {found : RuleMatch}
    (heat : state.eat? pipeRule = some (some found, state')) (memory : M) :
    (pipe : Program Kind M Unit).run state memory =
      ((if state'.currentGroup?.isNone then Program.complain pipeComplaint
        else .pure ()).bind fun _ =>
          (Program.push Kind.pipe state.mark).bind fun _ => .pure ()).run state' memory := by
  simp only [pipe, bind, Program.mark, Program.bind, Program.tryEat, Program.run, heat,
    Program.state]
  cases state'.currentGroup?.isNone <;> rfl

theorem currentGroup?_isNone (follows : state.Follows draft) :
    state.currentGroup?.isNone = draft.innermost?.isNone := by
  rw [follows.innermost?, currentGroup?, Nesting.current?]
  cases state.nesting.innermost? <;> rfl

theorem answers_pipe (follows : state.Follows draft) (text : state.remaining = c :: cs) :
    Answers ((pipe : Program Kind M Unit).run state) () () state draft c cs
      (if c = '|' then
        some (.token .pipe (if draft.innermost?.isNone then some pipeComplaint else none), 0)
      else none) := by
  have hfinds : pipeRule.Finds c cs _ := finds_char c cs "\\|" '|'
  by_cases hc : c = '|'
  · rw [if_pos hc] at hfinds ⊢
    obtain ⟨groups, heat⟩ := eat?_of_finds text hfinds
    have split := split_of_remaining text 0
    have hsame : state.currentGroup?.isNone = draft.innermost?.isNone :=
      currentGroup?_isNone follows
    have hcurrent : (state.past (c :: cs.take 0) (cs.drop 0) split).currentGroup?.isNone =
      draft.innermost?.isNone := hsame
    have hrun := run_pipe_some (M := M) heat
    rw [hcurrent] at hrun
    cases hinner : draft.innermost?.isNone with
    | false =>
      rw [hinner] at hrun
      obtain ⟨id, state', hpush, hnext⟩ := push?_past follows split Kind.pipe
      refine ⟨state', hnext, fun memory => ?_⟩
      rw [hrun memory]
      exact Program.run_push hpush _ memory
    | true =>
      rw [hinner] at hrun
      simp only [Answers, if_true, Draft.put]
      cases hmode : state.options.errorMode with
      | collect =>
        -- The note is made before the token is added, which does not look at the notes.
        let note : Diagnostic := ⟨pipeComplaint, state.location.advance [c], state.label⟩
        let noted : ParseState Kind := { state with diagnostics := state.diagnostics.push note }
        have hnoted : noted.Follows { draft with notes := draft.notes.push note } :=
          ⟨follows.inStep, follows.spine, congrArg (·.push note) follows.notes, follows.location⟩
        obtain ⟨id, state', hpush, hnext⟩ := push?_past hnoted split Kind.pipe
        refine ⟨state', ⟨hnext.follows, hnext.options, hnext.remaining, hnext.consumed⟩,
          fun memory => ?_⟩
        have hreport : (state.past (c :: cs.take 0) (cs.drop 0) split).report pipeComplaint =
            (.ok (), noted.past (c :: cs.take 0) (cs.drop 0) split) :=
          report_collect (state.past _ _ split) hmode pipeComplaint
        rw [hrun memory]
        simp only [if_true, Program.complain, Program.bind, Program.run, hreport, Program.ofExcept]
        exact Program.run_push hpush _ memory
      | throw =>
        refine ⟨state.past (c :: cs.take 0) (cs.drop 0) split, fun memory => ?_⟩
        have hreport : (state.past (c :: cs.take 0) (cs.drop 0) split).report pipeComplaint =
            (.error (.at (.diagnostic pipeComplaint) state.label (state.location.advance [c])),
              state.past (c :: cs.take 0) (cs.drop 0) split) :=
          report_throw (state.past _ _ split) hmode pipeComplaint
        rw [hrun memory]
        simp only [if_true, Program.complain, Program.bind, Program.run, hreport, Program.ofExcept]
        rfl
  · rw [if_neg hc] at hfinds ⊢
    intro memory
    have heat : state.eat? pipeRule = some (none, state) := eat?_of_none (text ▸ hfinds)
    simp only [pipe, bind, Program.mark, Program.bind, Program.tryEat, Program.run, heat]
    rfl

/-- What the handlers find, in order. -/
def table (innermost : Option Kind) (c : Char) (cs : List Char) : List (Option (Use Kind × Nat)) :=
  let next := cs.head?
  [if c = '\\' ∧ cs ≠ [] then some (.token .escape, 1) else none,
    if innermost = some .bracket ∧ isMember c then
      some (.token .text, (cs.takeWhile isMember).length)
    else none,
    if c = '"' then (quoteEnd cs).map (Use.token .quoted none, ·) else none,
    if isSign c ∧ next = some '(' then some (.opening .paren (some (String.ofList [c])), 1)
    else if c = '(' then some (.opening .paren none, 0) else none,
    if c = ')' then some (.closing .paren none, 0) else none,
    if c = '\x7b' then some (.opening .brace none, 0) else none,
    if c = '\x7d' then some (.closing .brace none, 0) else none,
    if c = '[' then
      if next = some '!' ∨ next = some '^' then
        some (.opening .bracket (some (String.ofList (cs.take 1))), 1)
      else some (.opening .bracket none, 0)
    else none,
    if c = ']' then some (.closing .bracket none, 0) else none,
    if c = '*' ∧ next = some '*' then some (.token .globstar, 1) else none,
    if c = '*' then some (.token .star, 0) else none,
    if c = '?' then some (.token .qmark, 0) else none,
    if c = '/' then some (.token .slash, 0) else none,
    if c = ',' then some (.token .comma, 0) else none,
    if c = '|' then
      some (.token .pipe (if innermost.isNone then some pipeComplaint else none), 0)
    else none,
    if isPlain c then some (.token .text, (cs.takeWhile isPlain).length) else none,
    if c ∈ ['!', '@', '+', '"', '\\'] then some (.token .text, 0) else none]

/-- **The first handler that finds a piece finds the one that the grammar says.** -/
theorem findSome?_table (innermost : Option Kind) (c : Char) (cs : List Char) :
    (table innermost c cs).findSome? id = some (cut innermost c cs) := by
  by_cases hescape : c = '\\' ∧ cs ≠ []
  · simp [table, cut, hescape]
  by_cases hbracket : innermost = some .bracket
  · rw [cut, if_neg hescape, if_pos hbracket, cutInBracket]
    by_cases hclose : c = ']'
    · subst hclose
      simp [table, hbracket, isMember, isSign]
    · by_cases hlast : c = '\\'
      · have hcs : cs = [] := by simpa [hlast] using hescape
        simp [table, hlast, hcs, isMember, isSign, isPlain]
      · simp [table, hbracket, hclose, hlast, isMember]
  · rw [cut, if_neg hescape, if_neg hbracket]
    unfold cutOutside
    by_cases hled : isSign c ∧ cs.head? = some '('
    · have hc : c ≠ '\\' ∧ c ≠ '"' := by
        constructor <;> (rintro rfl; exact absurd hled.1 (by decide))
      simp [table, hbracket, hled, hc]
    · simp only [if_neg hled]
      split
      case h_1 => cases hend : quoteEnd cs <;> simp [table, hbracket, hend, isSign, isPlain]
      case h_6 =>
        by_cases hnext : cs.head? = some '!' ∨ cs.head? = some '^' <;>
          simp [table, hbracket, hnext, isSign]
      case h_8 =>
        have hopen : cs.head? ≠ some '(' := fun h => hled ⟨rfl, h⟩
        by_cases hnext : cs.head? = some '*' <;>
          simp [table, hbracket, hopen, hnext]
      all_goals simp_all [table, isSign, isPlain]

/-- A rule for tokens that finds something in one case only. -/
theorem answers_token (follows : state.Follows draft) (text : state.remaining = c :: cs)
    {rule : Rule} {p : Prop} [Decidable p] {more : Nat}
    (finds : rule.Finds c cs (if p then some (none, none, more) else none)) (kind : Kind) :
    Answers ((Handler.capture kind rule : Handler Kind M).program.run state) () () state draft c cs
      (if p then some (.token kind, more) else none) := by
  have h := answers_capture (M := M) follows text finds kind
  rwa [apply_ite (Option.map _)] at h

/-- A closing rule that finds something in one case only. -/
theorem answers_closer (follows : state.Follows draft) (text : state.remaining = c :: cs)
    {rule : Rule} {p : Prop} [Decidable p] {more : Nat}
    (finds : rule.Finds c cs (if p then some (none, none, more) else none)) (kind : Kind) :
    Answers ((Handler.closing kind rule : Handler Kind M).program.run state) () () state draft c cs
      (if p then some (.closing kind none, more) else none) := by
  have h := answers_closing (M := M) follows text finds kind
  rwa [apply_ite (Option.map _)] at h

/-- **A turn of the handlers cuts off the piece that the grammar says.** -/
theorem answers_handlers (follows : state.Follows draft) (linked : draft.Linked Fits)
    (text : state.remaining = c :: cs) :
    Answers (Parser.turn state.cursor (handlers (M := M)).toList state) false true state draft c cs
      (some (cut draft.innermost? c cs)) := by
  have char (pattern : String) (d : Char) := finds_char c cs pattern d
  rw [← findSome?_table]
  refine answers_turn ?_
  simp only [handlers, table]
  refine .cons ?escape <| .cons ?classText <| .cons ?quoted <| .cons ?parenOpen <|
    .cons ?parenClose <| .cons ?braceOpen <| .cons ?braceClose <| .cons ?bracketOpen <|
    .cons ?bracketClose <| .cons ?globstar <| .cons ?star <| .cons ?qmark <| .cons ?slash <|
    .cons ?comma <| .cons ?pipe <| .cons ?text <| .cons ?stray .nil
  case escape => exact answers_token follows text (escapeRule_finds c cs) .escape
  case classText => exact answers_classText follows linked text
  case quoted =>
    have h := answers_capture (M := M) follows text (quotedRule_finds c cs) .quoted
    rwa [apply_ite (Option.map _), Option.map_map] at h
  case parenOpen =>
    have h := answers_opening (M := M) follows text (parenOpenRule_finds c cs) .paren
    rwa [apply_ite (Option.map _), apply_ite (Option.map _)] at h
  case parenClose => exact answers_closer follows text (char "\\)" ')') .paren
  case braceOpen =>
    have h := answers_opening (M := M) follows text (char "\\\x7b" '\x7b') .brace
    rwa [apply_ite (Option.map _)] at h
  case braceClose => exact answers_closer follows text (char "\\\x7d" '\x7d') .brace
  case bracketOpen =>
    have h := answers_opening (M := M) follows text (bracketOpenRule_finds c cs) .bracket
    rwa [apply_ite (Option.map _), apply_ite (Option.map _)] at h
  case bracketClose => exact answers_closer follows text (char "\\]" ']') .bracket
  case globstar => exact answers_token follows text (globstarRule_finds c cs) .globstar
  case star => exact answers_token follows text (char "\\*" '*') .star
  case qmark => exact answers_token follows text (char "\\?" '?') .qmark
  case slash => exact answers_token follows text (char "/" '/') .slash
  case comma => exact answers_token follows text (char "," ',') .comma
  case pipe => exact answers_pipe follows text
  case text => exact answers_token follows text (textRule_finds c cs) .text
  case stray => exact answers_token follows text (strayRule_finds c cs) .text

end Handlers

/-! ## The shapes of entries -/

/-- A quoted text ends with its quote, and no backslash is left over in front of it. -/
theorem take_quoteEnd {cs : List Char} {n : Nat} (h : quoteEnd cs = some n) :
    ∃ inside text, cs.take n = inside ++ ['"'] ∧ Quotes inside text := by
  fun_induction quoteEnd cs generalizing n with
  | case1 => cases h
  | case2 => cases h
  | case3 c cs ih =>
    obtain ⟨m, hm, rfl⟩ := Option.map_eq_some_iff.1 h
    obtain ⟨inside, text, hinside, hquotes⟩ := ih hm
    exact ⟨'\\' :: c :: inside, _, by rw [List.take_succ_cons, List.take_succ_cons, hinside]; rfl,
      hquotes.escaped c⟩
  | case4 cs =>
    cases h
    exact ⟨[], [], rfl, .nil⟩
  | case5 c cs hlast hescape _ ih =>
    obtain ⟨m, hm, rfl⟩ := Option.map_eq_some_iff.1 h
    obtain ⟨inside, text, hinside, hquotes⟩ := ih hm
    exact ⟨c :: inside, _, by rw [List.take_succ_cons, hinside]; rfl,
      hquotes.plain (ne_backslash hlast hescape)⟩

theorem shaped_of_cutInBracket {c : Char} {cs : List Char} {use : Use Kind} {more : Nat}
    (hcut : cutInBracket c cs = (use, more)) (place : Location) (label : String) :
    ∀ entry ∈ Draft.newEntries use (c :: cs.take more) place label, Shaped entry := by
  rw [cutInBracket] at hcut
  split at hcut
  · cases hcut
    simp [Draft.newEntries, Draft.entryOf, Shaped, Kind.groups]
  · split at hcut <;> cases hcut <;> simp [Draft.newEntries, Draft.entryOf, Shaped, Kind.tokens]

theorem shaped_of_cutOutside {c : Char} {cs : List Char} {innermost : Option Kind} {use : Use Kind}
    {more : Nat} (hcut : cutOutside innermost c cs = (use, more)) (place : Location)
    (label : String) :
    ∀ entry ∈ Draft.newEntries use (c :: cs.take more) place label, Shaped entry := by
  unfold cutOutside at hcut
  simp only [] at hcut
  split at hcut
  next hled =>
    cases hcut
    have hlead : ∀ lead, some (String.ofList [c]) = some lead →
        ∃ d, isSign d ∧ lead = String.ofList [d] :=
      fun lead h => ⟨c, hled.1, (Option.some.inj h).symm⟩
    simpa [Draft.newEntries, Draft.entryOf, Draft.groupOf, Shaped, Kind.groups] using hlead
  next =>
    split at hcut
    case h_1 =>
      cases hend : quoteEnd cs with
      | none =>
        rw [hend] at hcut
        cases hcut
        simp [Draft.newEntries, Draft.entryOf, Shaped, Kind.tokens]
      | some n =>
        rw [hend] at hcut
        cases hcut
        obtain ⟨inside, text, hinside, hquotes⟩ := take_quoteEnd hend
        intro entry hentry
        obtain rfl := List.mem_singleton.1 hentry
        exact ⟨inside, text, by rw [Draft.entryOf, hinside], hquotes⟩
    case h_6 =>
      split at hcut <;> cases hcut <;>
        simp [Draft.newEntries, Draft.entryOf, Draft.groupOf, Shaped, Kind.groups]
    case h_8 =>
      split at hcut <;> cases hcut <;>
        simp [Draft.newEntries, Draft.entryOf, Shaped, Kind.tokens]
    all_goals
      cases hcut
      simp [Draft.newEntries, Draft.entryOf, Draft.groupOf, Shaped, Kind.tokens, Kind.groups]

/-- **The pieces that the grammar cuts off lead to entries of the right shapes.** -/
theorem shaped_newEntries {innermost : Option Kind} {c : Char} {cs : List Char} {use : Use Kind}
    {more : Nat} (hcut : cut innermost c cs = (use, more)) (place : Location) (label : String) :
    ∀ entry ∈ Draft.newEntries use (c :: cs.take more) place label, Shaped entry := by
  rw [cut] at hcut
  split at hcut
  next hescape =>
    cases hcut
    obtain ⟨d, ds, rfl⟩ := List.exists_cons_of_ne_nil hescape.2
    obtain rfl := hescape.1
    intro entry hentry
    obtain rfl := List.mem_singleton.1 hentry
    exact ⟨d, rfl⟩
  next =>
    split at hcut
    next => exact shaped_of_cutInBracket hcut place label
    next => exact shaped_of_cutOutside hcut place label

/-- In brackets, only texts and escapes are cut off, and the end of the brackets. -/
theorem cut_bracket (c : Char) (cs : List Char) :
    (∃ complaint, (cut (some .bracket) c cs).1 = .token .text complaint) ∨
      (∃ complaint, (cut (some .bracket) c cs).1 = .token .escape complaint) ∨
        (cut (some .bracket) c cs).1 = .closing .bracket none := by
  rw [cut, if_pos rfl, cutInBracket]
  split
  · exact .inr (.inl ⟨none, rfl⟩)
  · split
    · exact .inr (.inr rfl)
    · split <;> exact .inl ⟨none, rfl⟩

theorem newLinks_fits {draft : Draft Kind} {c : Char} {cs : List Char} {use : Use Kind}
    {more : Nat} (linked : draft.Linked Fits) (hcut : cut draft.innermost? c cs = (use, more))
    (place : Location) (label : String) :
    Draft.NewLinks Fits (Zipper.above? draft.zipper.outer) use (c :: cs.take more) place label := by
  have hshaped := shaped_newEntries hcut place label
  have hbracket (h : ∃ group ∈ Zipper.above? draft.zipper.outer, group.role = .group .bracket) :
      draft.innermost? = some .bracket := by
    obtain ⟨group, hgroup, hrole⟩ := h
    rcases linked.above? with hnone | ⟨above, kind, habove, hkind, hinnermost⟩
    · cases hnone.symm.trans hgroup
    · obtain rfl := Option.some.inj (habove.symm.trans hgroup)
      obtain rfl : kind = .bracket := Role.group.inj (hkind.symm.trans hrole)
      exact hinnermost
  have hcases := cut_bracket c cs
  cases use with
  | token kind complaint =>
    refine ⟨hshaped _ List.mem_cons_self, fun h => ?_⟩
    rw [hbracket h] at hcut
    simp only [hcut, Use.token.injEq, reduceCtorEq, or_false] at hcases
    rcases hcases with ⟨_, rfl, _⟩ | ⟨_, rfl, _⟩ <;> simp [Draft.entryOf]
  | opening kind lead =>
    have hopened : ¬ ∃ group ∈ Zipper.above? draft.zipper.outer, group.role = .group .bracket := by
      intro h
      rw [hbracket h] at hcut
      simp [hcut] at hcases
    refine ⟨⟨hshaped _ List.mem_cons_self, fun h => absurd h hopened⟩,
      hshaped _ (List.mem_cons_of_mem _ List.mem_cons_self), ?_⟩
    rintro ⟨group, hgroup, hrole⟩
    obtain rfl := Option.some.inj hgroup
    obtain rfl : kind = .bracket := Role.group.inj hrole
    simp [Draft.entryOf]
  | closing kind trail =>
    refine ⟨hshaped _ List.mem_cons_self, fun h => ?_⟩
    rw [hbracket h] at hcut
    simp only [hcut, reduceCtorEq, exists_false, false_or, Use.closing.injEq] at hcases
    obtain ⟨rfl, -⟩ := hcases
    simp [Draft.entryOf]

/-- **The table of handlers cuts patterns as the grammar says.** -/
theorem obeys_cut : Obeys (handlers (M := M)).toList
    (fun innermost c cs => some (cut innermost c cs)) (Draft.Linked Fits) where
  answers follows linked text := answers_handlers follows linked text
  keeps linked hcut hput := linked.put hput (newLinks_fits linked (Option.some.inj hcut) _ _)

/-! ## Parsing -/

/-- The content of the document of a pattern, as a scanner with a stack of open groups finds it. -/
def scan (pattern : String) (options : ParserOptions) : Except (ParseError Kind) (Content Kind) :=
  Draft.read (fun innermost c cs => some (cut innermost c cs)) options pattern.toList

theorem parse_eq_scan (pattern : String) (options : ParserOptions) :
    (parse pattern options).map Document.content = (scan pattern options).mapError .failed := by
  have hobeys : Obeys (parser options).handlers.toList
    (fun innermost c cs => some (cut innermost c cs)) (Draft.Linked Fits) := obeys_cut
  have hparse := Parser.parse_of_fresh hobeys (Draft.linked_empty Fits) rfl rfl pattern
  rw [scan]
  cases hread : Draft.read (fun innermost c cs => some (cut innermost c cs)) options
      pattern.toList with
  | error error =>
    rw [hread] at hparse
    rw [parse, hparse]
    rfl
  | ok content =>
    rw [hread] at hparse
    obtain ⟨document, hdocument, hcontent⟩ := hparse
    rw [parse, hdocument]
    exact congrArg Except.ok hcontent.content_eq

end GlobTree.Extglob
