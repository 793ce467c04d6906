import GlobTree.Extglob.Grammar
import GlobTree.Proofs.Parser.Draft
import GlobTree.Proofs.Regex.Anchored
/-!
# How extended glob patterns are cut

`Extglob.cut` is the grammar of extended glob patterns in one piece: from the text that is left and
the kind of the innermost open group, it tells the next piece. It looks no further than the piece
and the character after it, except for a quote, whose partner may be far away (`quoteEnd`).

The rules of the grammar are regular expressions. The lemmas here say in the same terms what each
of them finds.
-/

namespace GlobTree.Extglob

open Draft

/-- The number of characters up to the quote that ends a quoted text, after the first quote. A
backslash takes the next character with it. -/
def quoteEnd : List Char → Option Nat
  | [] | ['\\'] => none
  | '\\' :: _ :: cs => (quoteEnd cs).map (· + 2)
  | c :: cs => if c = '"' then some 1 else (quoteEnd cs).map (· + 1)

/-- A character is no backslash if it is neither the last one nor one with another character after
it. -/
theorem ne_backslash {c : Char} {cs : List Char} (hlast : c = '\\' → cs = [] → False)
    (hescape : ∀ d tail, c = '\\' → cs = d :: tail → False) : c ≠ '\\' := by
  intro hc
  cases cs with
  | nil => exact hlast hc rfl
  | cons d tail => exact hescape d tail hc rfl

/-- The signs that a parenthesis can have in front. -/
def isSign (c : Char) : Bool := c ∈ ['!', '@', '*', '?', '+']

/-- The characters that are text in brackets. -/
def isMember (c : Char) : Bool := c ∉ ['\\', ']']

/-- The characters that are text everywhere. -/
def isPlain (c : Char) : Bool :=
  c ∉ ['\\', '"', '(', ')', '\x7b', '\x7d', '[', ']', '*', '?', '/', ',', '|', '!', '@', '+']

/-- The next piece directly inside of brackets. -/
def cutInBracket (c : Char) (cs : List Char) : Use Kind × Nat :=
  if c = ']' then (.closing .bracket none, 0)
  else if c = '\\' then (.token .text, 0)
  else (.token .text, (cs.takeWhile isMember).length)

/-- The next piece outside of brackets. -/
def cutOutside (innermost : Option Kind) (c : Char) (cs : List Char) : Use Kind × Nat :=
  let next := cs.head?
  if isSign c ∧ next = some '(' then (.opening .paren (some (String.ofList [c])), 1)
  else match c with
    | '"' =>
      match quoteEnd cs with
      | some more => (.token .quoted, more)
      | none => (.token .text, 0)
    | '(' => (.opening .paren none, 0)
    | ')' => (.closing .paren none, 0)
    | '\x7b' => (.opening .brace none, 0)
    | '\x7d' => (.closing .brace none, 0)
    | '[' =>
      if next = some '!' ∨ next = some '^' then
        (.opening .bracket (some (String.ofList (cs.take 1))), 1)
      else (.opening .bracket none, 0)
    | ']' => (.closing .bracket none, 0)
    | '*' => if next = some '*' then (.token .globstar, 1) else (.token .star, 0)
    | '?' => (.token .qmark, 0)
    | '/' => (.token .slash, 0)
    | ',' => (.token .comma, 0)
    | '|' => (.token .pipe (if innermost.isNone then some pipeComplaint else none), 0)
    | '!' | '@' | '+' | '\\' => (.token .text, 0)
    | _ => (.token .text, (cs.takeWhile isPlain).length)

/-- The next piece of a text `c :: cs`: what it is good for, and how many more characters it has. -/
def cut (innermost : Option Kind) (c : Char) (cs : List Char) : Use Kind × Nat :=
  if c = '\\' ∧ cs ≠ [] then (.token .escape, 1)
  else if innermost = some .bracket then cutInBracket c cs
  else cutOutside innermost c cs

/-! ## What the rules find -/

section Rules

variable (c : Char) (cs : List Char)

/-- A rule of one given character. -/
theorem finds_char (pattern : String) (d : Char) :
    (Rule.mk pattern (.seq (.assert .textStart) (.one 0 (.single d))) []).Finds c cs
      (if c = d then some (none, none, 0) else none) := by
  have h : (Rule.mk pattern (.seq (.assert .textStart) (.one 0 (.single d))) []).Finds c cs _ :=
    Rule.finds_one (.single d) c cs
  simpa using h

theorem escapeRule_finds :
    escapeRule.Finds c cs (if c = '\\' ∧ cs ≠ [] then some (none, none, 1) else none) := by
  have h : escapeRule.Finds c cs _ := Rule.finds_two (.single '\\') .any c cs
  have hany : cs.head?.any CharClass.any.contains = !cs.isEmpty := by cases cs <;> rfl
  simpa [hany] using h

theorem parenOpenRule_finds :
    parenOpenRule.Finds c cs
      (if isSign c ∧ cs.head? = some '(' then some (some (String.ofList [c]), none, 1)
      else if c = '(' then some (none, none, 0) else none) := by
  have h : parenOpenRule.Finds c cs _ := Rule.finds_led
    (.unions [.single '!', .single '@', .single '*', .single '?', .single '+']) (.single '(') c cs
  have hsign : CharClass.contains
      (.unions [.single '!', .single '@', .single '*', .single '?', .single '+']) c = isSign c := by
    simp [CharClass.contains_unions, isSign, beq_eq_decide]
  have hnext : cs.head?.any (CharClass.contains (.single '(')) = decide (cs.head? = some '(') := by
    cases cs <;> simp [beq_eq_decide]
  rw [hsign, hnext] at h
  simpa using h

theorem bracketOpenRule_finds :
    bracketOpenRule.Finds c cs
      (if c = '[' then
        if cs.head? = some '!' ∨ cs.head? = some '^' then
          some (some (String.ofList (cs.take 1)), none, 1)
        else some (none, none, 0)
      else none) := by
  have h : bracketOpenRule.Finds c cs _ := Rule.finds_trailed
    (.single '[') (.unions [.single '!', .single '^']) c cs
  have hnext : cs.head?.any (CharClass.contains (.unions [.single '!', .single '^'])) =
      decide (cs.head? = some '!' ∨ cs.head? = some '^') := by
    cases cs <;> simp [CharClass.contains_unions, beq_eq_decide]
  rw [hnext] at h
  simpa using h

theorem globstarRule_finds :
    globstarRule.Finds c cs
      (if c = '*' ∧ cs.head? = some '*' then some (none, none, 1) else none) := by
  have h : globstarRule.Finds c cs _ := Rule.finds_two (.single '*') (.single '*') c cs
  have hnext : cs.head?.any (CharClass.contains (.single '*')) = decide (cs.head? = some '*') := by
    cases cs <;> simp [beq_eq_decide]
  rw [hnext] at h
  simpa using h

theorem classTextRule_finds :
    classTextRule.Finds c cs
      (if isMember c then some (none, none, (cs.takeWhile isMember).length) else none) := by
  have h : classTextRule.Finds c cs _ := Rule.finds_many
    (.compl (.unions [.single '\\', .single ']'])) c cs
  have hmember : CharClass.contains (.compl (.unions [.single '\\', .single ']'])) = isMember := by
    funext d
    simp [CharClass.contains_unions, isMember, beq_eq_decide]
  rwa [hmember] at h

theorem textRule_finds :
    textRule.Finds c cs
      (if isPlain c then some (none, none, (cs.takeWhile isPlain).length) else none) := by
  have h : textRule.Finds c cs _ := Rule.finds_many
    (.compl (.unions [.single '\\', .single '"', .single '(', .single ')', .single '\x7b',
      .single '\x7d', .single '[', .single ']', .single '*', .single '?', .single '/', .single ',',
      .single '|', .single '!', .single '@', .single '+'])) c cs
  have hplain : CharClass.contains
      (.compl (.unions [.single '\\', .single '"', .single '(', .single ')', .single '\x7b',
        .single '\x7d', .single '[', .single ']', .single '*', .single '?', .single '/', .single ',',
        .single '|', .single '!', .single '@', .single '+'])) = isPlain := by
    funext d
    simp [CharClass.contains_unions, isPlain, beq_eq_decide]
  rwa [hplain] at h

theorem strayRule_finds :
    strayRule.Finds c cs
      (if c ∈ ['!', '@', '+', '"', '\\'] then some (none, none, 0) else none) := by
  have h : strayRule.Finds c cs _ := Rule.finds_one
    (.unions [.single '!', .single '@', .single '+', .single '"', .single '\\']) c cs
  have hstray : CharClass.contains
      (.unions [.single '!', .single '@', .single '+', .single '"', .single '\\']) c =
        decide (c ∈ ['!', '@', '+', '"', '\\']) := by
    simp [CharClass.contains_unions, beq_eq_decide]
  rw [hstray] at h
  simpa using h

end Rules

/-! ## Quoted texts -/

section Quoted

open Regex

/-- What is read inside of a quoted text: a character other than a quote or a backslash, or an
escape. -/
def quotedLoop : Regex :=
  .star 1 true (.alt 2
    (.one 3 (.compl (.unions [.single '"', .single '\\'])))
    (.seq (.one 4 (.single '\\')) (.one 5 .any)))

/-- What is left to do after a character inside of a quoted text. -/
def quotedFrames : List Frame := [.enter quotedLoop, .enter (.one 6 (.single '"'))]

/-- The threads inside of a quoted text. -/
def quotedThreads : List Thread :=
  [⟨.single '"', [], ⟨0, []⟩⟩,
    ⟨.single '\\', .enter (.one 5 .any) :: quotedFrames, ⟨0, []⟩⟩,
    ⟨.compl (.unions [.single '"', .single '\\']), quotedFrames, ⟨0, []⟩⟩]

theorem resume_quotedFrames (place : Place) :
    (resume place quotedFrames ⟨0, []⟩ {}).threads = quotedThreads ∧
      (resume place quotedFrames ⟨0, []⟩ {}).ended = none := by
  simp [resume, quotedFrames, quotedLoop, quotedThreads, enter, Frontier.visit, Frontier.isClosed,
    Frontier.push]

theorem follow_quote (before rest : List Char) (count : Nat) :
    follow before ('"' :: rest) count ⟨quotedThreads, none⟩ = some ⟨⟨0, count + 1⟩, []⟩ := by
  simp [follow, advance, quotedThreads, resume, Frontier.finish, Progress.update,
    History.matchUpTo, follow_none, CharClass.contains_unions]

theorem follow_escape (before rest : List Char) (count : Nat) (c : Char) :
    follow before ('\\' :: c :: rest) count ⟨quotedThreads, none⟩ =
      follow (c :: '\\' :: before) rest (count + 1 + 1) ⟨quotedThreads, none⟩ := by
  obtain ⟨hthreads, hended⟩ := resume_quotedFrames ⟨c :: '\\' :: before, rest, count + 1 + 1⟩
  have hany : CharClass.any.contains c = true := rfl
  have hstep : follow before ('\\' :: c :: rest) count ⟨quotedThreads, none⟩ =
      follow ('\\' :: before) (c :: rest) (count + 1) ⟨[⟨.any, quotedFrames, ⟨0, []⟩⟩], none⟩ := by
    simp [follow, advance, quotedThreads, resume, Progress.update, enter, Frontier.visit,
      Frontier.isClosed, Frontier.push, CharClass.contains_unions]
  rw [hstep, follow]
  simp only [advance, List.foldr_cons, List.foldr_nil, hany, if_true, Progress.update, hthreads,
    hended]
  rfl

theorem follow_plain (before rest : List Char) (count : Nat) {c : Char} (hquote : c ≠ '"')
    (hescape : c ≠ '\\') :
    follow before (c :: rest) count ⟨quotedThreads, none⟩ =
      follow (c :: before) rest (count + 1) ⟨quotedThreads, none⟩ := by
  obtain ⟨hthreads, hended⟩ := resume_quotedFrames ⟨c :: before, rest, count + 1⟩
  have hplain : CharClass.contains (.compl (.unions [.single '"', .single '\\'])) c = true := by
    simp [CharClass.contains_unions, hquote, hescape]
  have hq : CharClass.contains (.single '"') c = false := by simpa using hquote
  have he : CharClass.contains (.single '\\') c = false := by simpa using hescape
  rw [follow]
  simp only [advance, quotedThreads, List.foldr_cons, List.foldr_nil, hplain, hq, he, if_true,
    Bool.false_eq_true, if_false, Progress.update]
  rw [hthreads, hended]
  rfl

/-- **A quoted text is followed to its end.** -/
theorem follow_quoted (before rest : List Char) (count : Nat) :
    follow before rest count ⟨quotedThreads, none⟩ =
      (quoteEnd rest).map fun more => ⟨⟨0, count + more⟩, []⟩ := by
  fun_induction quoteEnd rest generalizing before count with
  | case1 => rfl
  | case2 => rfl
  | case3 c cs ih =>
    rw [follow_escape, ih]
    cases quoteEnd cs <;> simp [Nat.add_comm, Nat.add_left_comm]
  | case4 cs => exact follow_quote before cs count
  | case5 c cs hlast hescape hquote ih =>
    rw [follow_plain before cs count hquote (ne_backslash hlast hescape), ih]
    cases quoteEnd cs <;> simp [Nat.add_comm, Nat.add_left_comm]

theorem quotedRule_finds (c : Char) (cs : List Char) :
    quotedRule.Finds c cs
      (if c = '"' then (quoteEnd cs).map fun more => (none, none, more) else none) := by
  have hsearch : quotedRule.regex.search (c :: cs) =
      if c = '"' then (quoteEnd cs).map fun more => ⟨⟨0, more + 1⟩, []⟩ else none := by
    have hregex : quotedRule.regex = .seq (.assert .textStart)
      (.seq (.one 0 (.single '"')) (.seq quotedLoop (.one 6 (.single '"')))) := rfl
    rw [hregex, search_anchored]
    by_cases hc : c = '"'
    · subst hc
      have hstart : Progress.update ⟨[], none⟩
          ((seq (.one 0 (.single '"')) (.seq quotedLoop (.one 6 (.single '"')))).enter
            ⟨[], '"' :: cs, 0⟩ [] (resume ⟨[], '"' :: cs, 0⟩ []) ⟨0, []⟩ {}) 0 =
          ⟨[⟨.single '"', [.enter (.seq quotedLoop (.one 6 (.single '"')))], ⟨0, []⟩⟩], none⟩ := by
        simp [enter, Frontier.visit_new, Frontier.push, Progress.update]
      -- The first quote is read, and then the ways are those inside of the quoted text.
      have hresume : resume ⟨['"'], cs, 1⟩ [.enter (.seq quotedLoop (.one 6 (.single '"')))] =
        resume ⟨['"'], cs, 1⟩ quotedFrames := rfl
      obtain ⟨hthreads, hended⟩ := resume_quotedFrames ⟨['"'], cs, 1⟩
      have hquote : CharClass.contains (.single '"') '"' = true := rfl
      rw [hstart, follow]
      simp only [advance, List.foldr_cons, List.foldr_nil, hquote, if_true, Nat.zero_add, hresume,
        Progress.update, hthreads, hended]
      have hquoted := follow_quoted ['"'] cs 1
      simp only [Nat.add_comm 1] at hquoted
      exact hquoted
    · simp [enter, Frontier.visit_new, Frontier.push, Progress.update, follow, advance, hc,
        follow_none]
  split
  next h =>
    rw [if_pos h] at hsearch
    cases hend : quoteEnd cs with
    | none =>
      rw [hend] at hsearch
      exact Rule.finds_none hsearch
    | some more =>
      rw [hend] at hsearch
      exact Rule.finds_some hsearch
  next h =>
    rw [if_neg h] at hsearch
    exact Rule.finds_none hsearch

end Quoted

end GlobTree.Extglob
