import GlobTree.Rule
/-!
# Reading the parts of a regular expression

A text that stands inside of a regular expression is read in several steps, which change the
alternation around it and nothing else, if no flags are set. `Alters` says what a text does in this
way, whatever is read before it and, up to a condition on the next character, after it. The parts of
a text are read one after the other (`Alters.append`), and what is in a group is read on its own
(`Alters.group`).

A rule is read from a text after an anchor and in a group, which are two levels more, and has to keep
the bounds of the engine (`Rule.read_of_alters`).
-/

namespace GlobTree

/-- An escaped character stands for itself. -/
theorem scanEscape_of_isEscapable {c : Char} (h : isEscapable c) (mode : ScanMode)
    (rest : List Char) : scanEscape mode (c :: rest) = .ok (.literal c, rest) := by
  show (if isEscapable c then Except.ok (Escaped.literal c, rest) else _) = _
  rw [if_pos h]

/-- How characters and classes are read if no flags are set. -/
abbrev ScanMode.plain (engine : Engine) : ScanMode := { engine := engine }

/-- What reading a text does to the alternation that it stands in, when `rest` comes after it. -/
def Alters (text rest : List Char) (effect : Branch → Except SyntaxError Branch) : Prop :=
  ∀ (state : Reading) (n : Nat), state.flags = {} → (text ++ rest).length ≤ n →
    ∃ m, rest.length ≤ m ∧ Reading.steps n state (text ++ rest) =
      (effect state.branch).bind fun branch => Reading.steps m { state with branch := branch } rest

namespace Alters

variable {a b text rest : List Char} {first second effect : Branch → Except SyntaxError Branch}

theorem nil (rest : List Char) : Alters [] rest .ok :=
  fun _ n _ hn => ⟨n, hn, rfl⟩

theorem congr (h : Alters text rest first) (same : ∀ branch, first branch = second branch) :
    Alters text rest second := by
  obtain rfl : first = second := funext same
  exact h

/-- **One text after the other.** -/
theorem append (hfirst : Alters a (b ++ rest) first) (hsecond : Alters b rest second) :
    Alters (a ++ b) rest fun branch => (first branch).bind second := by
  intro state n hflags hn
  rw [List.append_assoc] at hn ⊢
  obtain ⟨m, hm, hsteps⟩ := hfirst state n hflags hn
  rw [hsteps]
  dsimp only
  cases first state.branch with
  | error error => exact ⟨rest.length, Nat.le_refl _, rfl⟩
  | ok branch => exact hsecond { state with branch := branch } m hflags hm

/-- A text that is read in one step. -/
theorem of_step {c : Char} {cs : List Char}
    (h : ∀ groups names stack branch engine,
      Reading.step ⟨{}, groups, names, stack, branch, engine⟩ c (cs ++ rest) =
        (effect branch).map fun branch => (⟨{}, groups, names, stack, branch, engine⟩, rest)) :
    Alters (c :: cs) rest effect := by
  rintro ⟨_, groups, names, stack, branch, engine⟩ n rfl hn
  rw [List.cons_append, List.length_cons, List.length_append] at hn
  obtain ⟨n, rfl⟩ : ∃ m, n = m + 1 := ⟨n - 1, by omega⟩
  refine ⟨n, by omega, ?_⟩
  rw [List.cons_append, Reading.steps, h]
  dsimp only
  cases effect branch <;> rfl

/-! ## Characters and classes -/

/-- A character without a meaning of its own. -/
theorem literal {c : Char} (h : c ∉ metaCharacters) :
    Alters [c] rest fun branch => .ok (branch.add (.one (.single c))) := by
  refine of_step fun groups names stack branch engine => ?_
  simp only [metaCharacters, List.mem_cons, List.not_mem_nil, or_false, not_or] at h
  obtain ⟨h₁, h₂, h₃, h₄, h₅, h₆, h₇, h₈, h₉, -, h₁₁, -, h₁₃, h₁₄, -⟩ := h
  unfold Reading.step
  simp only [Bool.false_and, Bool.false_eq_true, if_false]
  rfl

/-- A character with a backslash in front. -/
theorem escaped {c : Char} (h : isEscapable c) :
    Alters ['\\', c] rest fun branch => .ok (branch.add (.one (.single c))) := by
  refine of_step fun groups names stack branch engine => ?_
  have hscan (mode : ScanMode) : scanEscape mode ([c] ++ rest) = .ok (.literal c, rest) :=
    scanEscape_of_isEscapable h mode rest
  unfold Reading.step
  simp only [Bool.false_and, Bool.false_eq_true, if_false, hscan]
  rfl

/-- Adds the characters of a text, each of which stands for itself. -/
def addText (text : List Char) (branch : Branch) : Branch :=
  text.foldl (fun branch c => branch.add (.one (.single c))) branch

/-- **A text that was escaped** is read character by character. -/
theorem escapeText (text rest : List Char) :
    Alters (escapeText text) rest fun branch => .ok (addText text branch) := by
  induction text with
  | nil => exact nil rest
  | cons c cs ih =>
    have hmeta : metaCharacters.all isEscapable = true := by decide
    have hfirst : Alters (if c ∈ metaCharacters then ['\\', c] else [c])
        (GlobTree.escapeText cs ++ rest) fun branch => .ok (branch.add (.one (.single c))) := by
      split
      next h => exact escaped (List.all_eq_true.1 hmeta c h)
      next h => exact literal h
    exact hfirst.append ih

theorem dot : Alters ['.'] rest fun branch => .ok (branch.add (.one .notNewline)) :=
  of_step fun _ _ _ _ _ => rfl

theorem bar : Alters ['|'] rest fun branch => .ok branch.next :=
  of_step fun _ _ _ _ _ => rfl

theorem textStart : Alters ['\\', 'A'] rest fun branch => .ok (branch.add (.assert .textStart)) :=
  of_step fun _ _ _ _ _ => rfl

theorem textEnd : Alters ['\\', 'z'] rest fun branch => .ok (branch.add (.assert .textEnd)) :=
  of_step fun _ _ _ _ _ => rfl

/-- A bracket expression. -/
theorem bracket {body : List Char} {members : Except SyntaxError NestedClass}
    (h : ∀ engine, scanBracket (.plain engine) (body ++ rest) = members.map fun set => (set, rest)) :
    Alters ('[' :: body) rest fun branch =>
      members.map fun read => branch.add (.one read.set) read.depth := by
  refine of_step fun groups names stack branch engine => ?_
  have hscan : scanBracket (Reading.mode ⟨{}, groups, names, stack, branch, engine⟩) (body ++ rest) =
    members.map fun set => (set, rest) := h engine
  unfold Reading.step
  simp only [Bool.false_and, Bool.false_eq_true, if_false, hscan]
  cases members <;> rfl

/-! ## Repetitions and groups -/

/-- The repetitions that are written with one sign. -/
def signCounts : Char → Option (Nat × Option Nat)
  | '?' => some (0, some 1)
  | '*' => some (0, none)
  | '+' => some (1, none)
  | _ => none

/-- A repetition sign, without a question mark after it. -/
theorem sign {c : Char} {least : Nat} {most : Option Nat} (hc : signCounts c = some (least, most))
    (hrest : rest.head? ≠ some '?') :
    Alters [c] rest fun branch => branch.repeatLast least most true := by
  refine of_step fun groups names stack branch engine => ?_
  have hrepeat : Reading.repeatLast ⟨{}, groups, names, stack, branch, engine⟩ least most rest =
      (branch.repeatLast least most true).map fun branch =>
        (⟨{}, groups, names, stack, branch, engine⟩, rest) := by
    cases rest with
    | nil =>
      cases hbranch : branch.repeatLast least most true <;>
        simp [Reading.repeatLast, hbranch] <;> rfl
    | cons d rest =>
      have hd : d ≠ '?' := fun h => hrest (congrArg some h)
      cases hbranch : branch.repeatLast least most true <;>
        simp [Reading.repeatLast, hbranch, hd] <;> rfl
  unfold signCounts at hc
  split at hc <;> cases hc <;> exact hrepeat

/-- **A group without a number** is read on its own and becomes an item of the alternation around
it. -/
theorem group (h : Alters text (')' :: rest) effect) :
    Alters (['(', '?', ':'] ++ (text ++ [')'])) rest fun branch =>
      (effect {}).map fun inner => branch.add inner.whole (inner.depth + 1) := by
  rintro ⟨_, groups, names, stack, branch, engine⟩ n rfl hn
  have htext : ['(', '?', ':'] ++ (text ++ [')']) ++ rest =
      '(' :: '?' :: ':' :: (text ++ ')' :: rest) := by
    simp
  rw [htext] at hn ⊢
  rw [List.length_cons, List.length_cons, List.length_cons, List.length_append,
    List.length_cons] at hn
  obtain ⟨n, rfl⟩ : ∃ m, n = m + 1 := ⟨n - 1, by omega⟩
  let inside : Reading := ⟨{}, groups, names, ⟨none, {}, branch⟩ :: stack, {}, engine⟩
  have hopen : Reading.step ⟨{}, groups, names, stack, branch, engine⟩ '('
      ('?' :: ':' :: (text ++ ')' :: rest)) = .ok (inside, text ++ ')' :: rest) := rfl
  obtain ⟨m, hm, hsteps⟩ := h inside n rfl
    (by rw [List.length_append, List.length_cons]; omega)
  rw [List.length_cons] at hm
  obtain ⟨m, rfl⟩ : ∃ k, m = k + 1 := ⟨m - 1, by omega⟩
  refine ⟨m, by omega, ?_⟩
  rw [Reading.steps, hopen]
  show Reading.steps n inside (text ++ ')' :: rest) = _
  rw [hsteps]
  dsimp only
  cases effect {} with
  | error error => rfl
  | ok inner =>
    have hclose : Reading.step { inside with branch := inner } ')' rest =
      .ok (⟨{}, groups, names, stack, branch.add inner.whole (inner.depth + 1), engine⟩, rest) := rfl
    show Reading.steps (m + 1) _ _ = _
    rw [Reading.steps, hclose]
    rfl

end Alters

/-! ## Whole texts -/

/-- **A whole text** is read as the alternation that it makes of an empty one. -/
theorem Pattern.read_of_alters {text : List Char} {effect : Branch → Except SyntaxError Branch}
    (h : Alters text [] effect) (engine : Engine) :
    Pattern.read text engine =
      (effect {}).map fun branch => ⟨branch.whole, [], branch.depth⟩ := by
  obtain ⟨m, -, hsteps⟩ := h { engine := engine } text.length rfl (by simp)
  rw [List.append_nil] at hsteps
  rw [read, hsteps]
  dsimp only
  cases effect {} with
  | error error => rfl
  | ok branch =>
    have hend : Reading.steps m { branch := branch, engine := engine } [] =
        .ok { branch := branch, engine := engine } := by
      cases m <;> rfl
    rw [Except.bind, hend]
    rfl

/-! ## Rules -/

/-- A rule is read from a text between an anchor and a closing parenthesis. -/
theorem Alters.anchored {text rest : List Char} {effect : Branch → Except SyntaxError Branch}
    (htext : Alters text (')' :: rest) effect) :
    Alters (Rule.anchored text) rest fun branch =>
      (effect {}).map fun inner =>
        (branch.add (.assert .textStart)).add inner.whole (inner.depth + 1) := by
  have hanchor : Alters ['\\', 'A'] ((['(', '?', ':'] ++ (text ++ [')'])) ++ rest) _ :=
    Alters.textStart
  have hsplit : Rule.anchored text = ['\\', 'A'] ++ (['(', '?', ':'] ++ (text ++ [')'])) := by
    simp [Rule.anchored]
  rw [hsplit]
  exact (hanchor.append htext.group).congr fun _ => rfl

/-- An expression that can be read makes a rule if it keeps the bounds. -/
theorem Rule.read_of_read {pattern : String} {engine : Engine} {found : PatternText}
    (h : Pattern.read (anchored pattern.toList) engine = .ok found) :
    Rule.read pattern engine =
      if engine.nesting < found.depth then .error ⟨pattern, .nestedTooDeep⟩
      else if engine.fits (anchored pattern.toList) then
        .ok ⟨pattern, found.pattern.compile, found.names⟩
      else .error ⟨pattern, .compiledTooLarge⟩ := by
  simp only [read, h, bind, Except.bind, checkBounds]
  by_cases hdeep : engine.nesting < found.depth
  · simp only [if_pos hdeep]
  · by_cases hfits : engine.fits (anchored pattern.toList)
    · simp only [if_neg hdeep, if_pos hfits]
    · simp only [if_neg hdeep, if_neg hfits]

/-- **The rule of a text** is what the text makes of an empty alternation, after an anchor, if this
is not nested too deep and small enough. -/
theorem Rule.read_of_alters {pattern : String} {effect : Branch → Except SyntaxError Branch}
    (h : Alters pattern.toList [')'] effect) (engine : Engine) :
    Rule.read pattern engine =
      match effect {} with
      | .error cause => .error ⟨pattern, cause⟩
      | .ok inner =>
        if engine.nesting < inner.depth + 2 then .error ⟨pattern, .nestedTooDeep⟩
        else if engine.fits (anchored pattern.toList) then
          .ok ⟨pattern, (Pattern.seq (.assert .textStart) inner.whole).compile, []⟩
        else .error ⟨pattern, .compiledTooLarge⟩ := by
  have hanchored := Pattern.read_of_alters h.anchored engine
  cases heffect : effect {} with
  | error cause =>
    rw [heffect] at hanchored
    rw [read, hanchored]
    rfl
  | ok inner =>
    rw [heffect] at hanchored
    let whole : Branch :=
      (({} : Branch).add (.assert .textStart)).add inner.whole (inner.depth + 1)
    have hread : Pattern.read (anchored pattern.toList) engine =
      .ok ⟨whole.whole, [], whole.depth⟩ := hanchored
    have hdepth : whole.depth = inner.depth + 2 := by
      simp [whole, Branch.depth, Branch.allDepths, Branch.add, depthOfParts]
    rw [read_of_read hread, hdepth]
    rfl

end GlobTree
