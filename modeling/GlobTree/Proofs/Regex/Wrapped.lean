import GlobTree.Proofs.Regex.Brackets
import GlobTree.Rule
/-!
# Texts inside of a group

A rule is a text between `\A(?:` and `)`. The text is read construct by construct, with the group
around it at the bottom of the stack. A construct does what it does without the group
(`Reading.step_inside`) and without the `)` at the end (`Reading.keeps_step`), unless it takes the
`)` for a part of itself. Then nothing is left to close the group, and there is no rule.

So either the text is a regular expression on its own, and the rule is this expression after an
anchor, or the text closes the group that was meant to be around it (`Rule.read_cases`).
-/

namespace GlobTree

open Scan

namespace Reading

variable (state : Reading) (cs : List Char)

/-! ## One construct -/

/-- What may follow an opening parenthesis. -/
inductive GroupKind
  | lookaround
  | named
  | flagged
  | capture

/-- The kind of a group, with the text after the marks that say so. -/
def groupKind : List Char → GroupKind × List Char
  | '?' :: '=' :: cs | '?' :: '!' :: cs | '?' :: '<' :: '=' :: cs | '?' :: '<' :: '!' :: cs =>
    (.lookaround, cs)
  | '?' :: 'P' :: '<' :: cs | '?' :: '<' :: cs => (.named, cs)
  | '?' :: cs => (.flagged, cs)
  | cs => (.capture, cs)

theorem groupKind_concat :
    groupKind (cs ++ [')']) = ((groupKind cs).1, (groupKind cs).2 ++ [')']) := by
  have hmarks {cs p : List Char} (hp : ')' ∉ p) (h : ∀ rest, cs = p ++ rest → False) :
      ∀ rest, cs ++ [')'] = p ++ rest → False := by
    rintro rest hrest
    rcases List.prefix_concat_iff.1 ⟨rest, hrest.symm⟩ with rfl | ⟨rest, hrest⟩
    · simp at hp
    · exact h rest hrest.symm
  fun_cases groupKind cs with
  | case6 cs h₁ h₂ =>
    exact groupKind.eq_6 _ (hmarks (p := ['=']) (by decide) h₁) (hmarks (p := ['!']) (by decide) h₂)
  | case7 cs h₁ h₂ h₃ h₄ h₅ h₆ =>
    exact groupKind.eq_7 _ (hmarks (p := ['=']) (by decide) h₁) (hmarks (p := ['!']) (by decide) h₂)
      (hmarks (p := ['<', '=']) (by decide) h₃) (hmarks (p := ['<', '!']) (by decide) h₄)
      (hmarks (p := ['P', '<']) (by decide) h₅) (hmarks (p := ['<']) (by decide) h₆)
  | case8 cs h₁ h₂ h₃ h₄ h₅ h₆ h₇ =>
    exact groupKind.eq_8 _ (hmarks (p := ['?', '=']) (by decide) h₁)
      (hmarks (p := ['?', '!']) (by decide) h₂) (hmarks (p := ['?', '<', '=']) (by decide) h₃)
      (hmarks (p := ['?', '<', '!']) (by decide) h₄) (hmarks (p := ['?', 'P', '<']) (by decide) h₅)
      (hmarks (p := ['?', '<']) (by decide) h₆) (hmarks (p := ['?']) (by decide) h₇)
  | _ => rfl

theorem length_groupKind_le : (groupKind cs).2.length ≤ cs.length := by
  unfold groupKind
  split <;> simp <;> omega

/-- What follows the flags of a group. -/
def afterFlags (flags : PatternFlags) (found : Bool) :
    List Char → Except SyntaxError (Reading × List Char)
  | ':' :: rest => .ok (state.openGroup none flags, rest)
  | ')' :: rest =>
    if found then .ok ({ state with flags := flags, branch := state.branch.settle }, rest)
    else .error .repetitionMissing
  | _ => .error .flagsUnclosed

theorem startGroup_eq :
    state.startGroup cs =
      match groupKind (skipSpace state.flags.ignoreSpace cs) with
      | (.lookaround, _) => .error .lookaround
      | (.named, cs) => do
        let (name, rest) ← scanName true cs
        return (← state.openNamed name, rest)
      | (.flagged, cs) => do
        let ((flags, found), rest) ← scanFlags [] state.flags cs
        state.afterFlags flags found rest
      | (.capture, cs) => .ok (state.openCapture, cs) := by
  unfold startGroup
  generalize skipSpace state.flags.ignoreSpace cs = text
  fun_cases groupKind text with
  | case6 => simp [*]
  | case7 =>
    simp [*]
    rfl
  | case8 =>
    simp [*]
    rfl
  | _ => rfl

theorem leaves_afterFlags (flags : PatternFlags) (found : Bool) :
    Leaves (cs.length - 1) (state.afterFlags flags found cs) := by
  unfold afterFlags
  split
  · exact leaves_ok (Nat.le_refl _)
  · split_ifs
    · exact leaves_ok (Nat.le_refl _)
    · exact leaves_error _
  · exact leaves_error _

theorem keeps_afterFlags (flags : PatternFlags) (found : Bool) :
    Keeps 0 (state.afterFlags flags found (cs ++ [')'])) (state.afterFlags flags found cs) := by
  rcases cs with _ | ⟨c, cs⟩
  · exact (state.leaves_afterFlags [')'] flags found).keeps
  · by_cases hcolon : c = ':'
    · subst hcolon
      exact keeps_ok _ cs
    by_cases hclose : c = ')'
    · subst hclose
      cases found
      · exact keeps_error _
      · exact keeps_ok _ cs
    · have hother (cs : List Char) :
          state.afterFlags flags found (c :: cs) = .error .flagsUnclosed := by
        simp [afterFlags, hcolon, hclose]
      rw [List.cons_append, hother]
      exact keeps_error _

theorem leaves_startGroup : Leaves cs.length (state.startGroup cs) := by
  have hlength := Nat.le_trans (length_groupKind_le (skipSpace state.flags.ignoreSpace cs))
    (length_skipSpace_le _ cs)
  rw [startGroup_eq]
  generalize groupKind (skipSpace state.flags.ignoreSpace cs) = result at hlength
  obtain ⟨kind, text⟩ := result
  refine Leaves.mono ?_ hlength
  cases kind with
  | lookaround => exact leaves_error _
  | named =>
    exact (leaves_scanName text true).bind fun name left h => leaves_after _ fun _ => leaves_ok h
  | flagged =>
    refine (leaves_scanFlags text [] state.flags).bind fun read left h => ?_
    exact (state.leaves_afterFlags left _ _).mono (Nat.le_trans (Nat.sub_le _ _) h)
  | capture => exact leaves_ok (Nat.le_refl _)

theorem keeps_startGroup : Keeps 0 (state.startGroup (cs ++ [')'])) (state.startGroup cs) := by
  rw [startGroup_eq, startGroup_eq]
  rcases skipSpace_concat state.flags.ignoreSpace cs with h | h
  · rw [h]
    exact Leaves.keeps (leaves_ok (Nat.le_refl _))
  · rw [h, groupKind_concat]
    generalize groupKind (skipSpace state.flags.ignoreSpace cs) = result
    obtain ⟨kind, text⟩ := result
    cases kind with
    | lookaround => exact keeps_error _
    | named =>
      refine (keeps_scanName text true).bind (fun name left h => ?_) fun name rest => ?_
      · exact leaves_after _ fun _ => leaves_ok h
      · exact keeps_after _ fun _ => keeps_ok _ rest
    | flagged =>
      refine (keeps_scanFlags text [] state.flags).bind (fun read left h => ?_) fun read rest => ?_
      · exact (state.leaves_afterFlags left _ _).mono (Nat.sub_le_of_le_add h)
      · exact state.keeps_afterFlags rest _ _
    | capture => exact keeps_ok _ text

/-- The greed of a repetition, which a question mark turns round. -/
def takeGreed (swapGreed : Bool) : List Char → Bool × List Char
  | '?' :: rest => (swapGreed, rest)
  | rest => (!swapGreed, rest)

theorem repeatLast_eq (least : Nat) (most : Option Nat) :
    state.repeatLast least most cs = do
      let branch ← state.branch.repeatLast least most (takeGreed state.flags.swapGreed cs).1
      return ({ state with branch := branch }, (takeGreed state.flags.swapGreed cs).2) := rfl

theorem length_takeGreed_le (swapGreed : Bool) : (takeGreed swapGreed cs).2.length ≤ cs.length := by
  unfold takeGreed
  split
  · exact Nat.le_succ _
  · exact Nat.le_refl _

theorem takeGreed_concat (swapGreed : Bool) :
    takeGreed swapGreed (cs ++ [')']) =
      ((takeGreed swapGreed cs).1, (takeGreed swapGreed cs).2 ++ [')']) := by
  rcases cs with _ | ⟨c, cs⟩
  · rfl
  · by_cases hc : c = '?'
    · subst hc
      rfl
    · simp [takeGreed, hc]

theorem leaves_repeatLast (least : Nat) (most : Option Nat) :
    Leaves cs.length (state.repeatLast least most cs) := by
  rw [repeatLast_eq]
  exact leaves_after _ fun _ => leaves_ok (length_takeGreed_le cs _)

theorem keeps_repeatLast (least : Nat) (most : Option Nat) :
    Keeps 0 (state.repeatLast least most (cs ++ [')'])) (state.repeatLast least most cs) := by
  rw [repeatLast_eq, repeatLast_eq, takeGreed_concat]
  exact keeps_after _ fun _ => keeps_ok _ _

theorem keeps_repeatLast_skipSpace (ignoreSpace : Bool) (least : Nat) (most : Option Nat) :
    Keeps 0 (state.repeatLast least most (skipSpace ignoreSpace (cs ++ [')'])))
      (state.repeatLast least most (skipSpace ignoreSpace cs)) :=
  keeps_skipSpace ignoreSpace cs (state.leaves_repeatLast [] least most)
    (state.keeps_repeatLast _ least most)

/-- The end of a repetition with two counts. -/
def afterMost (least most : Nat) : List Char → Except SyntaxError (Reading × List Char)
  | '}' :: rest =>
    if least ≤ most then
      state.repeatLast least (some most) (skipSpace state.flags.ignoreSpace rest)
    else .error .countReversed
  | _ => .error .countUnclosed

/-- A repetition with counts after the comma. -/
def afterComma (least : Nat) : List Char → Except SyntaxError (Reading × List Char)
  | '}' :: rest => state.repeatLast least none (skipSpace state.flags.ignoreSpace rest)
  | rest => do
    let (most, rest) ← scanCount state.flags.ignoreSpace rest
    state.afterMost least most rest

/-- A repetition with counts after the first of them. -/
def afterLeast (least : Nat) : List Char → Except SyntaxError (Reading × List Char)
  | '}' :: rest =>
    state.repeatLast least (some least) (skipSpace state.flags.ignoreSpace rest)
  | ',' :: rest => state.afterComma least (skipSpace state.flags.ignoreSpace rest)
  | _ => .error .countUnclosed

theorem startCount_eq :
    state.startCount cs = (do
      let (least, rest) ←
        scanCount state.flags.ignoreSpace (skipSpace state.flags.ignoreSpace cs)
      state.afterLeast least rest) := rfl

theorem leaves_afterMost (least most : Nat) :
    Leaves cs.length (state.afterMost least most cs) := by
  unfold afterMost
  split
  · split_ifs
    · refine (state.leaves_repeatLast _ _ _).mono ?_
      exact Nat.le_succ_of_le (length_skipSpace_le _ _)
    · exact leaves_error _
  · exact leaves_error _

theorem keeps_afterMost (least most : Nat) :
    Keeps 0 (state.afterMost least most (cs ++ [')'])) (state.afterMost least most cs) := by
  rcases cs with _ | ⟨c, cs⟩
  · exact keeps_error _
  · by_cases hc : c = '}'
    · subst hc
      dsimp only [afterMost, List.cons_append]
      split_ifs
      · exact state.keeps_repeatLast_skipSpace cs _ _ _
      · exact keeps_error _
    · have hother (cs : List Char) :
          state.afterMost least most (c :: cs) = .error .countUnclosed := by
        simp [afterMost, hc]
      rw [List.cons_append, hother]
      exact keeps_error _

theorem afterComma_of_ne (least : Nat) (h : cs.head? ≠ some '}') :
    state.afterComma least cs = (do
      let (most, rest) ← scanCount state.flags.ignoreSpace cs
      state.afterMost least most rest) := by
  rcases cs with _ | ⟨c, cs⟩
  · rfl
  · have hc : c ≠ '}' := fun hc => h (congrArg some hc)
    simp [afterComma, hc]

theorem leaves_afterComma (least : Nat) :
    Leaves cs.length (state.afterComma least cs) := by
  unfold afterComma
  split
  · refine (state.leaves_repeatLast _ _ _).mono ?_
    exact Nat.le_succ_of_le (length_skipSpace_le _ _)
  · refine (leaves_scanCount _ cs).bind fun most left h => ?_
    exact (state.leaves_afterMost left _ _).mono h

theorem keeps_afterComma (least : Nat) :
    Keeps 0 (state.afterComma least (cs ++ [')'])) (state.afterComma least cs) := by
  by_cases hcs : cs.head? = some '}'
  · obtain ⟨rest, rfl⟩ := List.head?_eq_some_iff.1 hcs
    exact state.keeps_repeatLast_skipSpace rest _ _ _
  · have hlong : (cs ++ [')']).head? ≠ some '}' := by
      cases cs with
      | nil => decide
      | cons c cs => exact hcs
    rw [afterComma_of_ne _ _ _ hcs, afterComma_of_ne _ _ _ hlong]
    refine (keeps_scanCount _ cs).bind (fun most left h => ?_) fun most rest => ?_
    · exact (state.leaves_afterMost left _ _).mono h
    · exact state.keeps_afterMost rest _ _

theorem leaves_afterLeast (least : Nat) :
    Leaves cs.length (state.afterLeast least cs) := by
  unfold afterLeast
  split
  · refine (state.leaves_repeatLast _ _ _).mono ?_
    exact Nat.le_succ_of_le (length_skipSpace_le _ _)
  · refine (state.leaves_afterComma _ _).mono ?_
    exact Nat.le_succ_of_le (length_skipSpace_le _ _)
  · exact leaves_error _

theorem keeps_afterLeast (least : Nat) :
    Keeps 0 (state.afterLeast least (cs ++ [')'])) (state.afterLeast least cs) := by
  rcases cs with _ | ⟨c, cs⟩
  · exact keeps_error _
  · by_cases hclose : c = '}'
    · subst hclose
      exact state.keeps_repeatLast_skipSpace cs _ _ _
    by_cases hcomma : c = ','
    · subst hcomma
      exact keeps_skipSpace state.flags.ignoreSpace cs (state.leaves_afterComma [] least)
        (state.keeps_afterComma _ least)
    · have hother (cs : List Char) :
          state.afterLeast least (c :: cs) = .error .countUnclosed := by
        simp [afterLeast, hclose, hcomma]
      rw [List.cons_append, hother]
      exact keeps_error _

theorem leaves_startCount : Leaves cs.length (state.startCount cs) := by
  rw [startCount_eq]
  refine Leaves.bind ((leaves_scanCount _ _).mono (length_skipSpace_le _ cs)) fun least left h => ?_
  exact (state.leaves_afterLeast left least).mono h

theorem keeps_startCount : Keeps 0 (state.startCount (cs ++ [')'])) (state.startCount cs) := by
  rw [startCount_eq, startCount_eq]
  have hnear (least : Nat) (left : List Char) (h : left.length ≤ 0) :
      Leaves 0 (state.afterLeast least left) := (state.leaves_afterLeast left least).mono h
  rcases skipSpace_concat state.flags.ignoreSpace cs with h | h
  · rw [h]
    exact Leaves.keeps ((leaves_scanCount _ []).bind hnear)
  · rw [h]
    exact (keeps_scanCount _ _).bind hnear fun least rest => state.keeps_afterLeast rest least

/-! ## One step -/

theorem leaves_step (c : Char) : Leaves cs.length (state.step c cs) := by
  have hhere (state : Reading) :
      Leaves cs.length (.ok (state, cs) : Except SyntaxError (Reading × List Char)) :=
    leaves_ok (Nat.le_refl _)
  unfold step
  dsimp only
  split
  · exact hhere state
  split
  · exact leaves_ok (length_dropSpace_le cs true)
  -- In the order of `step`: groups, bars, brackets, repetitions, escapes and single characters.
  · split
    next => exact state.leaves_startGroup cs
    next => exact leaves_after _ fun _ => hhere _
    next => exact hhere _
    next => exact (leaves_scanBracket _ cs).bind fun _ _ h => leaves_ok h
    next => exact state.leaves_repeatLast cs _ _
    next => exact state.leaves_repeatLast cs _ _
    next => exact state.leaves_repeatLast cs _ _
    next => exact state.leaves_startCount cs
    next =>
      refine Leaves.bind ((leaves_scanEscape cs _).mono (Nat.sub_le _ _)) fun _ _ h => leaves_ok h
    next => exact leaves_after _ fun _ => hhere _
    all_goals exact hhere _

/-- **One construct** leaves the parenthesis alone, or nothing is left after it. -/
theorem keeps_step (c : Char) : Keeps 0 (state.step c (cs ++ [')'])) (state.step c cs) := by
  unfold step
  dsimp only
  split
  · exact keeps_ok state cs
  split
  · rcases dropSpace_concat cs true with h | h
    · rw [h]
      exact Leaves.keeps (leaves_ok (Nat.le_refl _))
    · rw [h]
      exact keeps_ok state _
  -- The constructs in the same order.
  · split
    next => exact state.keeps_startGroup cs
    next => exact keeps_after _ fun _ => keeps_ok _ cs
    next => exact keeps_ok _ cs
    next =>
      exact (keeps_scanBracket _ cs).bind (fun _ _ h => leaves_ok h) fun _ rest => keeps_ok _ rest
    next => exact state.keeps_repeatLast cs _ _
    next => exact state.keeps_repeatLast cs _ _
    next => exact state.keeps_repeatLast cs _ _
    next => exact state.keeps_startCount cs
    next =>
      exact (keeps_scanEscape cs _).bind (fun _ _ h => leaves_ok h) fun _ rest => keeps_ok _ rest
    next => exact keeps_after _ fun _ => keeps_ok _ cs
    all_goals exact keeps_ok _ cs

/-! ## Inside of a group -/

variable (outer : OpenGroup)

/-- The same inside of one more group, which is around all that are open. -/
def inside (state : Reading) : Reading :=
  { state with stack := state.stack ++ [outer] }

theorem inside_stack_ne_nil : (state.inside outer).stack ≠ [] :=
  List.append_ne_nil_of_right_ne_nil _ (List.cons_ne_nil _ _)

/-- The same result inside of one more group. -/
def placed (result : Reading × List Char) : Reading × List Char :=
  (result.1.inside outer, result.2)

theorem map_bind_placed {α : Type} (result : Except SyntaxError α)
    {next next' : α → Except SyntaxError (Reading × List Char)}
    (h : ∀ a, next' a = (next a).map (placed outer)) :
    result >>= next' = (result >>= next).map (placed outer) := by
  cases result with
  | error error => rfl
  | ok a => exact h a

theorem openNamed_inside (name : List Char) :
    (state.inside outer).openNamed name = (state.openNamed name).map (inside outer) := by
  by_cases h : (state.names.lookup (String.ofList name)).isSome
  · simp [openNamed, inside, h, Except.map]
  · simp [openNamed, inside, openCapture, openGroup, h, Except.map]

theorem afterFlags_inside (flags : PatternFlags) (found : Bool) :
    (state.inside outer).afterFlags flags found cs =
      (state.afterFlags flags found cs).map (placed outer) := by
  unfold afterFlags
  split
  · rfl
  · split_ifs <;> rfl
  · rfl

theorem startGroup_inside :
    (state.inside outer).startGroup cs = (state.startGroup cs).map (placed outer) := by
  rw [startGroup_eq, startGroup_eq]
  have hflags : (state.inside outer).flags = state.flags := rfl
  rw [hflags]
  generalize groupKind (skipSpace state.flags.ignoreSpace cs) = result
  obtain ⟨kind, text⟩ := result
  cases kind with
  | lookaround => rfl
  | named =>
    refine map_bind_placed outer _ fun read => ?_
    dsimp only
    rw [openNamed_inside]
    cases state.openNamed read.1 <;> rfl
  | flagged => exact map_bind_placed outer _ fun read => state.afterFlags_inside _ outer _ _
  | capture => rfl

theorem repeatLast_inside (least : Nat) (most : Option Nat) :
    (state.inside outer).repeatLast least most cs =
      (state.repeatLast least most cs).map (placed outer) := by
  rw [repeatLast_eq, repeatLast_eq]
  exact map_bind_placed outer _ fun _ => rfl

theorem afterMost_inside (least most : Nat) :
    (state.inside outer).afterMost least most cs =
      (state.afterMost least most cs).map (placed outer) := by
  unfold afterMost
  split
  · split_ifs
    · exact state.repeatLast_inside _ outer _ _
    · rfl
  · rfl

theorem afterComma_inside (least : Nat) :
    (state.inside outer).afterComma least cs =
      (state.afterComma least cs).map (placed outer) := by
  unfold afterComma
  split
  · exact state.repeatLast_inside _ outer _ _
  · exact map_bind_placed outer _ fun read => state.afterMost_inside _ outer _ _

theorem afterLeast_inside (least : Nat) :
    (state.inside outer).afterLeast least cs =
      (state.afterLeast least cs).map (placed outer) := by
  unfold afterLeast
  split
  · exact state.repeatLast_inside _ outer _ _
  · exact state.afterComma_inside _ outer _
  · rfl

theorem startCount_inside :
    (state.inside outer).startCount cs = (state.startCount cs).map (placed outer) := by
  rw [startCount_eq, startCount_eq]
  exact map_bind_placed outer _ fun read => state.afterLeast_inside _ outer _

theorem closeGroup_inside (h : state.stack ≠ []) :
    (state.inside outer).closeGroup = state.closeGroup.map (inside outer) := by
  obtain ⟨group, stack, hstack⟩ := List.exists_cons_of_ne_nil h
  rw [closeGroup, closeGroup]
  dsimp only [inside]
  rw [hstack]
  rfl

/-- **One construct** is read in the same way inside of one more group, unless it closes this
group. -/
theorem step_inside {c : Char} (h : c = ')' → state.stack ≠ []) :
    (state.inside outer).step c cs = (state.step c cs).map (placed outer) := by
  unfold step
  dsimp only [inside]
  split
  · rfl
  split
  · rfl
  -- The constructs in the same order.
  · split
    next => exact state.startGroup_inside cs outer
    next =>
      have hclose := state.closeGroup_inside outer (h rfl)
      dsimp only [inside] at hclose
      rw [hclose]
      cases state.closeGroup <;> rfl
    next => rfl
    next => exact map_bind_placed outer _ fun _ => rfl
    next => exact state.repeatLast_inside cs outer _ _
    next => exact state.repeatLast_inside cs outer _ _
    next => exact state.repeatLast_inside cs outer _ _
    next => exact state.startCount_inside cs outer
    next =>
      refine map_bind_placed outer _ fun read => ?_
      obtain ⟨escaped, rest⟩ := read
      cases escaped <;> rfl
    next => exact map_bind_placed outer _ fun _ => rfl
    all_goals rfl

/-! ## Whole texts -/

theorem step_close : state.step ')' cs = state.closeGroup.map fun next => (next, cs) := by
  have hblank : isBlank ')' = false := by decide +kernel
  have hcomment : decide (')' = '#') = false := rfl
  rw [step]
  simp only [hblank, hcomment, Bool.and_false, Bool.false_eq_true, if_false]
  rfl

/-- The possible outcomes of reading a text inside of a group that is closed after the text, if this
succeeds: on its own the text closes a group that it did not open, some group is still open, or the
text can be read on its own and the group around it was closed. -/
theorem steps_inside {n m : Nat} {state final : Reading} {cs : List Char} (hm : cs.length ≤ m)
    (h : steps n (state.inside outer) (cs ++ [')']) = .ok final) :
    steps m state cs = .error .groupUnopened ∨ final.stack ≠ [] ∨
      ∃ own, steps m state cs = .ok own ∧ own.stack = [] ∧
        (own.inside outer).closeGroup = .ok final := by
  -- Both readings take the same steps, up to the first of the three outcomes.
  induction n generalizing m state cs with
  | zero => cases cs <;> cases h
  | succ n ih =>
    have hend (last : Reading) : steps n last [] = .ok last := by cases n <;> rfl
    cases cs with
    | nil =>
      have hshort : steps m state [] = .ok state := by cases m <;> rfl
      rw [List.nil_append, steps, step_close] at h
      obtain ⟨_, hmap, h⟩ := bind_eq_ok_iff.1 h
      obtain ⟨closed, hclose, rfl⟩ := map_eq_ok_iff.1 hmap
      obtain rfl : closed = final := Except.ok.inj ((hend closed).symm.trans h)
      by_cases hstack : state.stack = []
      · exact .inr (.inr ⟨state, hshort, hstack, hclose⟩)
      · rw [state.closeGroup_inside outer hstack] at hclose
        obtain ⟨next, -, rfl⟩ := map_eq_ok_iff.1 hclose
        exact .inr (.inl (inside_stack_ne_nil next outer))
    | cons c cs =>
      obtain ⟨m, rfl⟩ := Nat.exists_eq_add_one.2 (Nat.zero_lt_of_lt hm)
      rw [List.cons_append, steps] at h
      by_cases hopen : c = ')' → state.stack ≠ []
      · rw [state.step_inside _ outer hopen] at h
        obtain ⟨_, hmap, h⟩ := bind_eq_ok_iff.1 h
        obtain ⟨⟨next, left⟩, hstep, rfl⟩ := map_eq_ok_iff.1 hmap
        rcases state.keeps_step cs c hstep with hleft | ⟨rest, rfl, hshort⟩
        -- The construct took the parenthesis along, and the group around is still open.
        · obtain rfl := List.length_eq_zero_iff.1 (Nat.le_zero.1 hleft)
          obtain rfl : next.inside outer = final := Except.ok.inj ((hend _).symm.trans h)
          exact .inr (.inl (inside_stack_ne_nil next outer))
        · have hlength := state.leaves_step cs c hshort
          rw [steps, hshort]
          exact ih (Nat.le_trans hlength (Nat.le_of_succ_le_succ hm)) h
      · obtain ⟨rfl, hnot⟩ := Classical.not_imp.1 hopen
        have hstack := Classical.not_not.1 hnot
        left
        rw [steps, step_close, closeGroup, hstack]
        rfl

end Reading

/-- A text can be read if reading it leaves no group open. -/
theorem Pattern.read_eq_ok_iff {text : List Char} {engine : Engine} {result : PatternText} :
    Pattern.read text engine = .ok result ↔
      ∃ state, Reading.steps text.length { engine := engine } text = .ok state ∧ state.stack = [] ∧
        result = ⟨state.branch.whole, state.names, state.branch.depth⟩ := by
  rw [Pattern.read, bind_eq_ok_iff]
  refine exists_congr fun state => and_congr_right fun _ => ?_
  cases hstack : state.stack with
  | nil => exact ⟨fun h => ⟨rfl, (Except.ok.inj h).symm⟩, fun h => congrArg Except.ok h.2.symm⟩
  | cons group stack => exact ⟨nofun, fun h => nomatch h.1⟩

/-- The expression of a rule was read, and it keeps the bounds. -/
theorem Rule.exists_of_read {pattern : String} {engine : Engine} {rule : Rule}
    (h : Rule.read pattern engine = .ok rule) :
    ∃ result, Pattern.read (anchored pattern.toList) engine = .ok result ∧
      rule = ⟨pattern, result.pattern.compile, result.names⟩ := by
  rw [read] at h
  split at h
  next result hresult =>
    obtain ⟨read, hread, hbounds⟩ := bind_eq_ok_iff.1 hresult
    obtain rfl : read = result := by
      unfold checkBounds at hbounds
      split_ifs at hbounds
      exact Except.ok.inj hbounds
    exact ⟨read, hread, (Except.ok.inj h).symm⟩
  next => cases h

/-- **What a rule is.** The text of a rule is a regular expression on its own, and the rule is this
expression after an anchor, or the text closes a group that it did not open. -/
theorem Rule.read_cases {pattern : String} {engine : Engine} {rule : Rule}
    (h : Rule.read pattern engine = .ok rule) :
    Pattern.read pattern.toList engine = .error .groupUnopened ∨
      ∃ own, Pattern.read pattern.toList engine = .ok own ∧
        rule.regex = (Pattern.seq (.assert .textStart) own.pattern).compile ∧
        rule.names = own.names := by
  let outer : OpenGroup := ⟨none, {}, ({} : Branch).add (.assert .textStart)⟩
  obtain ⟨result, hresult, rfl⟩ := exists_of_read h
  generalize pattern.toList = text at hresult
  have hopen (n : Nat) : Reading.steps (n + 2) { engine := engine } (anchored text) =
      Reading.steps n (Reading.inside outer { engine := engine }) (text ++ [')']) := rfl
  have hlength : (anchored text).length = (text.length + 4) + 2 := by simp [anchored]
  obtain ⟨final, hsteps, hclosed, rfl⟩ := Pattern.read_eq_ok_iff.1 hresult
  rw [hlength, hopen] at hsteps
  rcases Reading.steps_inside outer (Nat.le_refl _) hsteps with
    hshort | hstack | ⟨own, hown, hstack, hclose⟩
  · left
    rw [Pattern.read, hshort]
    rfl
  · exact absurd hclosed hstack
  · right
    have hfinal : (own.inside outer).closeGroup = .ok
        { own with
          flags := {}
          branch := outer.outer.add own.branch.whole (own.branch.depth + 1) } := by
      rw [Reading.closeGroup, Reading.inside, hstack]
      rfl
    obtain rfl := Except.ok.inj (hfinal.symm.trans hclose)
    exact ⟨_, Pattern.read_eq_ok_iff.2 ⟨own, hown, hstack, rfl⟩, rfl, rfl⟩

end GlobTree
