import GlobTree.Regex.Bracket
import GlobTree.Proofs.Regex.Scanning
import GlobTree.Proofs.Results
/-!
# Bracket expressions and a closing parenthesis at the end

`keeps_scanBracket` says for bracket expressions what `Scan.Keeps` says for any scanner. Inside of a
bracket the parenthesis can only become a member, and the bracket has no end then.
-/

namespace GlobTree

open Scan

variable (mode : ScanMode) (cs : List Char)

/-! ## Members and ranges -/

theorem leaves_scanMember : Leaves (cs.length - 1) (scanMember mode cs) := by
  cases cs with
  | nil => exact leaves_error _
  | cons c cs =>
    rw [scanMember]
    refine Leaves.bind ?_ fun escaped left h => leaves_asciiOnly left mode _ escaped h
    split_ifs
    · exact (leaves_scanEscape cs mode).mono (Nat.sub_le _ _)
    · exact leaves_ok (Nat.le_refl _)

theorem keeps_scanMember : Keeps 0 (scanMember mode (cs ++ [')'])) (scanMember mode cs) := by
  cases cs with
  | nil => exact (leaves_scanMember mode [')']).keeps
  | cons c cs =>
    rw [List.cons_append, scanMember, scanMember]
    refine Keeps.bind ?_ (fun escaped left h => leaves_asciiOnly left mode _ escaped h)
      fun escaped rest => keeps_asciiOnly rest mode _ escaped
    split_ifs
    · exact keeps_scanEscape cs mode
    · exact keeps_ok _ cs

/-- The parenthesis does not decide whether a minus sign stands for a range. -/
theorem nextAfter_concat (ignoreSpace : Bool) (c : Char) {mark : Char} (hmark : mark ≠ ')') :
    nextAfter ignoreSpace (c :: (cs ++ [')'])) = some mark ↔
      nextAfter ignoreSpace (c :: cs) = some mark := by
  have hhead (cs : List Char) : (cs ++ [')']).head? = some mark ↔ cs.head? = some mark := by
    cases cs with
    | nil => simpa using hmark.symm
    | cons d cs => exact Iff.rfl
  rw [nextAfter, nextAfter]
  split_ifs
  · rw [dropWhile_isBlank_concat]
    generalize cs.dropWhile isBlank = cs
    cases cs with
    | nil => simpa using hmark.symm
    | cons d cs =>
      by_cases hd : d = '#'
      · subst hd
        show ((cs ++ [')']).dropWhile isBlank).head? = _ ↔ (cs.dropWhile isBlank).head? = _
        rw [dropWhile_isBlank_concat, hhead]
      · simp
  · exact hhead cs

/-- The end of a range, after its minus sign. -/
def scanRangeEnd (low : Escaped) (cs : List Char) : Except SyntaxError (CharClass × List Char) := do
  let (high, rest) ← scanMember mode cs
  let first ← low.toChar
  let last ← high.toChar
  if first ≤ last then return (.range first last, rest) else throw .bracketRangeReversed

theorem leaves_scanRangeEnd (low : Escaped) :
    Leaves (cs.length - 1) (scanRangeEnd mode low cs) := by
  refine (leaves_scanMember mode cs).bind fun high left hleft => ?_
  refine leaves_after _ fun first => leaves_after _ fun last => ?_
  split_ifs
  · exact leaves_ok hleft
  · exact leaves_error _

theorem keeps_scanRangeEnd (low : Escaped) :
    Keeps 0 (scanRangeEnd mode low (cs ++ [')'])) (scanRangeEnd mode low cs) := by
  refine (keeps_scanMember mode cs).bind (fun high left hleft => ?_) fun high rest => ?_
  · refine leaves_after _ fun first => leaves_after _ fun last => ?_
    split_ifs
    · exact leaves_ok hleft
    · exact leaves_error _
  · refine keeps_after _ fun first => keeps_after _ fun last => ?_
    split_ifs
    · exact keeps_ok _ rest
    · exact keeps_error _

theorem leaves_scanRange : Leaves (cs.length - 1) (scanRange mode cs) := by
  refine (leaves_scanMember mode cs).bind fun low left hleft => ?_
  have hlength := length_skipSpace_le mode.ignoreSpace left
  dsimp only
  split
  · exact leaves_error _
  next c after h =>
    rw [h, List.length_cons] at hlength
    split_ifs
    · refine leaves_after _ fun members => leaves_ok ?_
      rw [h, List.length_cons]
      exact Nat.le_trans hlength hleft
    · refine (leaves_scanRangeEnd mode _ low).mono ?_
      have hafter := length_skipSpace_le mode.ignoreSpace after
      omega

/-- A member at the very end leaves the parenthesis, but then there is no end of the bracket. -/
theorem keeps_scanRange : Keeps 1 (scanRange mode (cs ++ [')'])) (scanRange mode cs) := by
  refine (keeps_scanMember mode cs).bind (fun low left h => ?_) fun low rest => ?_
  · obtain rfl := List.length_eq_zero_iff.1 (Nat.le_zero.1 h)
    have hnone : skipSpace mode.ignoreSpace [] = [] := by cases mode.ignoreSpace <;> rfl
    dsimp only
    rw [hnone]
    exact leaves_error _
  · dsimp only
    rcases skipSpace_concat mode.ignoreSpace rest with h | h
    · rw [h]
      exact keeps_error _
    · rw [h]
      cases skipSpace mode.ignoreSpace rest with
      | nil => exact Leaves.keeps (leaves_after _ fun members => leaves_ok (Nat.le_refl _))
      | cons c after =>
        rw [List.cons_append]
        dsimp only
        simp only [nextAfter_concat after mode.ignoreSpace c (show ']' ≠ ')' by decide),
          nextAfter_concat after mode.ignoreSpace c (show '-' ≠ ')' by decide)]
        split_ifs
        · exact keeps_after _ fun members => keeps_ok members (c :: after)
        · have hend : Keeps 0 (scanRangeEnd mode low (skipSpace mode.ignoreSpace (after ++ [')'])))
              (scanRangeEnd mode low (skipSpace mode.ignoreSpace after)) :=
            keeps_skipSpace mode.ignoreSpace after (leaves_scanRangeEnd mode [] low)
              (keeps_scanRangeEnd mode _ low)
          exact hend.mono (Nat.zero_le 1)

/-! ## The start of a bracket -/

theorem takeSigns_eq_takeRun (ignoreSpace : Bool) (n : Nat) :
    takeSigns ignoreSpace n cs =
      (takeRun ignoreSpace (· = '-') n cs).map (List.map .single) id := by
  induction n generalizing cs with
  | zero => rfl
  | succ n ih =>
    cases cs with
    | nil => rfl
    | cons c cs =>
      rw [takeSigns, takeRun, ih]
      by_cases hc : c = '-'
      · subst hc
        rfl
      · simp [hc]

/-- The caret that negates, at the head of a text. -/
def takeCaret (ignoreSpace : Bool) : List Char → Bool × List Char
  | '^' :: cs => (true, skipSpace ignoreSpace cs)
  | cs => (false, cs)

theorem takeCaret_of_ne (ignoreSpace : Bool) {c : Char} (hc : c ≠ '^') :
    takeCaret ignoreSpace (c :: cs) = (false, c :: cs) := by
  simp [takeCaret, hc]

theorem length_takeCaret_le (ignoreSpace : Bool) :
    (takeCaret ignoreSpace cs).2.length ≤ cs.length := by
  rw [takeCaret.eq_def]
  split
  · exact Nat.le_succ_of_le (length_skipSpace_le _ _)
  · exact Nat.le_refl _

/-- A comment after the caret may take the parenthesis with it. -/
theorem takeCaret_concat (ignoreSpace : Bool) :
    ignoreSpace ∧ (takeCaret ignoreSpace (cs ++ [')'])).2 = [] ∨
      takeCaret ignoreSpace (cs ++ [')']) =
        ((takeCaret ignoreSpace cs).1, (takeCaret ignoreSpace cs).2 ++ [')']) := by
  rcases cs with _ | ⟨c, cs⟩
  · exact .inr rfl
  by_cases hc : c = '^'
  · subst hc
    cases ignoreSpace
    · exact .inr rfl
    · rcases skipSpace_concat true cs with h | h
      · exact .inl ⟨rfl, h⟩
      · exact .inr (congrArg (Prod.mk true) h)
  · rw [List.cons_append, takeCaret_of_ne _ _ hc, takeCaret_of_ne _ _ hc]
    exact .inr rfl

/-- What stands at the start of a bracket after the caret and the minus signs: a `]` stands for itself
if there were no signs. -/
def scanFirstMember (negated : Bool) (signs : List CharClass) (cs : List Char) :
    Scan (Bool × List CharClass) :=
  match signs, cs with
  | _, [] => .error .bracketUnclosed
  | [], ']' :: cs =>
    match skipSpace mode.ignoreSpace cs with
    | [] => .error .bracketUnclosed
    | cs => .ok ((negated, [.single ']']), cs)
  | signs, cs => .ok ((negated, signs), cs)

theorem scanBracketStart_eq :
    scanBracketStart mode cs =
      let caret := takeCaret mode.ignoreSpace (skipSpace mode.ignoreSpace cs)
      let signs := takeSigns mode.ignoreSpace caret.2.length caret.2
      if caret.1 && !mode.unicode then .error .characterSplit
      else scanFirstMember mode caret.1 signs.1 signs.2 := rfl

theorem scanFirstMember_nil (negated : Bool) (signs : List CharClass) :
    scanFirstMember mode negated signs [] = .error .bracketUnclosed := by
  cases signs <;> rfl

theorem scanFirstMember_cons (negated : Bool) (signs : List CharClass) (c : Char) :
    scanFirstMember mode negated signs (c :: cs) =
      if signs = [] ∧ c = ']' then
        if skipSpace mode.ignoreSpace cs = [] then .error .bracketUnclosed
        else .ok ((negated, [.single ']']), skipSpace mode.ignoreSpace cs)
      else .ok ((negated, signs), c :: cs) := by
  rcases signs with _ | ⟨sign, signs⟩
  · by_cases hc : c = ']'
    · subst hc
      rw [if_pos ⟨rfl, rfl⟩, scanFirstMember]
      cases skipSpace mode.ignoreSpace cs <;> rfl
    · simp [scanFirstMember, hc]
  · simp [scanFirstMember]

theorem leaves_scanFirstMember (negated : Bool) (signs : List CharClass) :
    Leaves cs.length (scanFirstMember mode negated signs cs) := by
  cases cs with
  | nil =>
    rw [scanFirstMember_nil]
    exact leaves_error _
  | cons c cs =>
    rw [scanFirstMember_cons]
    split_ifs
    · exact leaves_error _
    · exact leaves_ok (Nat.le_succ_of_le (length_skipSpace_le mode.ignoreSpace cs))
    · exact leaves_ok (Nat.le_refl _)

theorem keeps_scanFirstMember (negated : Bool) (signs : List CharClass) :
    Keeps 1 (scanFirstMember mode negated signs (cs ++ [')']))
      (scanFirstMember mode negated signs cs) := by
  cases cs with
  | nil => exact (leaves_scanFirstMember mode [')'] negated signs).keeps
  | cons c cs =>
    rw [List.cons_append, scanFirstMember_cons, scanFirstMember_cons]
    by_cases hc : signs = [] ∧ c = ']'
    · rw [if_pos hc, if_pos hc]
      rcases skipSpace_concat mode.ignoreSpace cs with h | h
      · rw [h]
        exact keeps_error _
      · rw [h, if_neg (List.append_ne_nil_of_right_ne_nil _ (List.cons_ne_nil _ _))]
        split_ifs with hnil
        · rw [hnil]
          exact Leaves.keeps (leaves_ok (Nat.le_refl _))
        · exact keeps_ok _ _
    · rw [if_neg hc, if_neg hc]
      exact keeps_ok _ (c :: cs)

theorem leaves_scanBracketStart : Leaves cs.length (scanBracketStart mode cs) := by
  rw [scanBracketStart_eq]
  dsimp only
  rw [takeSigns_eq_takeRun]
  split_ifs
  · exact leaves_error _
  · refine (leaves_scanFirstMember mode _ _ _).mono (Nat.le_trans (length_takeRun_le _ _ _ _) ?_)
    exact Nat.le_trans (length_takeCaret_le _ _) (length_skipSpace_le _ _)

theorem keeps_scanBracketStart :
    Keeps 1 (scanBracketStart mode (cs ++ [')'])) (scanBracketStart mode cs) := by
  rw [scanBracketStart_eq, scanBracketStart_eq]
  dsimp only
  have hend (negated : Bool) :
      Keeps 1 (if negated && !mode.unicode then .error .characterSplit
          else scanFirstMember mode negated [] []) (scanBracketStart mode cs) := by
    split_ifs <;> exact keeps_error _
  rcases skipSpace_concat mode.ignoreSpace cs with h | h
  · rw [h]
    exact hend false
  · rw [h]
    rcases takeCaret_concat (skipSpace mode.ignoreSpace cs) mode.ignoreSpace with ⟨-, h⟩ | h
    · rw [h]
      exact hend _
    · rw [h]
      generalize takeCaret mode.ignoreSpace (skipSpace mode.ignoreSpace cs) = result
      obtain ⟨negated, cs⟩ := result
      dsimp only
      rw [takeSigns_eq_takeRun, takeSigns_eq_takeRun]
      split_ifs
      · exact keeps_error _
      · rcases takeRun_concat mode.ignoreSpace cs (· = '-') rfl
          (n := (cs ++ [')']).length) (by simp) (Nat.le_refl _) with
          ⟨run, hlong⟩ | ⟨run, rest, hlong, hshort⟩
        · rw [hlong]
          exact keeps_error _
        · rw [hlong, hshort]
          exact keeps_scanFirstMember mode rest negated _

/-- The name of a class, with what follows up to the end mark. -/
def scanClassName? (negated : Bool) (cs : List Char) :
    Option ((Bool × CharClass) × List Char) :=
  match cs.dropWhile (· ≠ ':') with
  | ':' :: ']' :: rest =>
    (CharClass.named? (String.ofList (cs.takeWhile (· ≠ ':')))).map fun members =>
      ((negated, members), rest)
  | _ => none

theorem scanClassName?_concat (negated : Bool) :
    scanClassName? negated (cs ++ [')']) =
      (scanClassName? negated cs).map fun (members, rest) => (members, rest ++ [')']) := by
  have hdrop : (cs ++ [')']).dropWhile (· ≠ ':') = _ := List.dropWhile_append
  have htake : (cs ++ [')']).takeWhile (· ≠ ':') = _ := List.takeWhile_append
  cases h : cs.dropWhile (· ≠ ':') with
  | nil =>
    rw [h] at hdrop
    rw [scanClassName?, scanClassName?, hdrop, h]
    rfl
  | cons c rest =>
    obtain rfl : c = ':' := by
      have hhead := List.head?_dropWhile_not (· ≠ ':') cs
      rw [h] at hhead
      simpa using hhead
    have hshorter : (cs.takeWhile (· ≠ ':')).length ≠ cs.length := by
      intro hlength
      have happend := congrArg List.length
        (List.takeWhile_append_dropWhile (p := (· ≠ ':')) (l := cs))
      rw [List.length_append, h, List.length_cons] at happend
      omega
    rw [h] at hdrop
    rw [if_neg hshorter] at htake
    rw [scanClassName?, scanClassName?, hdrop, htake, h]
    rcases rest with _ | ⟨d, rest⟩
    · rfl
    · by_cases hd : d = ']'
      · subst hd
        dsimp only [List.cons_append]
        cases CharClass.named? (String.ofList (cs.takeWhile (· ≠ ':'))) <;> rfl
      · simp [hd]

theorem scanNamedClass?_colon :
    scanNamedClass? (':' :: cs) =
      scanClassName? (takeCaret false cs).1 (takeCaret false cs).2 := rfl

theorem scanNamedClass?_of_ne {c : Char} (hc : c ≠ ':') :
    scanNamedClass? (c :: cs) = none := by
  simp [scanNamedClass?, hc]

/-- Named classes are read without any skipping, and have their own end. -/
theorem scanNamedClass?_concat :
    scanNamedClass? (cs ++ [')']) =
      (scanNamedClass? cs).map fun (members, rest) => (members, rest ++ [')']) := by
  rcases cs with _ | ⟨c, cs⟩
  · rfl
  rw [List.cons_append]
  by_cases hc : c = ':'
  · subst hc
    rw [scanNamedClass?_colon, scanNamedClass?_colon, ← scanClassName?_concat]
    rcases takeCaret_concat cs false with ⟨h, -⟩ | h
    · cases h
    · rw [h]
  · rw [scanNamedClass?_of_ne _ hc, scanNamedClass?_of_ne _ hc]
    rfl

theorem length_scanNamedClass? {members : Bool × CharClass} {rest : List Char}
    (h : scanNamedClass? cs = some (members, rest)) : rest.length ≤ cs.length := by
  rcases cs with _ | ⟨c, cs⟩
  · cases h
  by_cases hc : c = ':'
  · subst hc
    have hcaret := length_takeCaret_le cs false
    have hdrop := (List.dropWhile_suffix (l := (takeCaret false cs).2) (· ≠ ':')).length_le
    rw [scanNamedClass?_colon, scanClassName?] at h
    split at h
    next rest' heq =>
      obtain ⟨_, -, hresult⟩ := Option.map_eq_some_iff.1 h
      cases hresult
      rw [heq, List.length_cons, List.length_cons] at hdrop
      rw [List.length_cons]
      omega
    next => cases h
  · rw [scanNamedClass?_of_ne _ hc] at h
    cases h

/-! ## Steps -/

/-- The operator at the head of a text. -/
def operatorAt? : List Char → Option (BracketOperator × List Char)
  | '&' :: '&' :: cs => some (.inter, cs)
  | '-' :: '-' :: cs => some (.diff, cs)
  | '~' :: '~' :: cs => some (.symmDiff, cs)
  | _ => none

theorem bracketStep_open (members : List NestedClass) (stack : List BracketFrame) :
    bracketStep mode members stack ('[' :: cs) =
      match scanNamedClass? cs with
      | some ((negated, named), rest) => do
        let named ← mode.complIf negated (mode.fold named)
        return .more (.flat named :: members) stack rest
      | none => do
        let ((negated, signs), rest) ← scanBracketStart mode cs
        return .more (signs.map .flat) (.bracket negated members :: stack) rest := rfl

theorem bracketStep_cons {c : Char} (hopen : c ≠ '[') (hclose : c ≠ ']') (members : List NestedClass)
    (stack : List BracketFrame) :
    bracketStep mode members stack (c :: cs) =
      match operatorAt? (c :: cs) with
      | some (op, rest) => .ok (pushOperator mode op members stack rest)
      | none => do
        let (member, rest) ← scanRange mode (c :: cs)
        return .more (.flat member :: members) stack rest := by
  unfold bracketStep
  split <;> simp_all [operatorAt?]

theorem operatorAt?_concat :
    operatorAt? (cs ++ [')']) =
      (operatorAt? cs).map fun (op, rest) => (op, rest ++ [')']) := by
  rcases cs with _ | ⟨c, _ | ⟨d, cs⟩⟩
  · rfl
  · simp [operatorAt?]
  · simp only [List.cons_append]
    unfold operatorAt?
    split <;> simp_all

/-- The text after a step. -/
def BracketStep.rest : BracketStep → List Char
  | .more _ _ rest | .done _ rest => rest

/-- The same step with a parenthesis after the text. -/
def BracketStep.concat : BracketStep → BracketStep
  | .more members stack rest => .more members stack (rest ++ [')'])
  | .done members rest => .done members (rest ++ [')'])

theorem rest_closeBracket (members : List NestedClass) (stack : List BracketFrame) :
    (closeBracket mode members stack cs).rest = cs := by
  rw [closeBracket]
  generalize applyPending mode (.union members) stack = result
  obtain ⟨whole, _ | ⟨_ | _, stack⟩⟩ := result
  · rfl
  · dsimp only
    split_ifs <;> rfl
  · rfl

theorem concat_closeBracket (members : List NestedClass) (stack : List BracketFrame) :
    (closeBracket mode members stack cs).concat =
      closeBracket mode members stack (cs ++ [')']) := by
  rw [closeBracket, closeBracket]
  generalize applyPending mode (.union members) stack = result
  obtain ⟨whole, _ | ⟨_ | _, stack⟩⟩ := result
  · rfl
  · dsimp only
    split_ifs <;> rfl
  · rfl

theorem length_operatorAt? {op : BracketOperator} {rest : List Char}
    (h : operatorAt? cs = some (op, rest)) : rest.length < cs.length := by
  unfold operatorAt? at h
  split at h
  · cases h
    exact Nat.lt_succ_of_lt (Nat.lt_succ_self _)
  · cases h
    exact Nat.lt_succ_of_lt (Nat.lt_succ_self _)
  · cases h
    exact Nat.lt_succ_of_lt (Nat.lt_succ_self _)
  · cases h

/-- Every step reads something. -/
theorem length_bracketStep {members : List NestedClass} {stack : List BracketFrame}
    {step : BracketStep} (h : bracketStep mode members stack cs = .ok step) :
    step.rest.length < cs.length := by
  rcases cs with _ | ⟨c, cs⟩
  · cases h
  by_cases hopen : c = '['
  · subst hopen
    rw [bracketStep_open] at h
    cases hnamed : scanNamedClass? cs with
    | some result =>
      rw [hnamed] at h
      obtain ⟨named, -, h⟩ := bind_eq_ok_iff.1 h
      cases h
      exact Nat.lt_succ_of_le (length_scanNamedClass? cs hnamed)
    | none =>
      rw [hnamed] at h
      obtain ⟨start, hstart, h⟩ := bind_eq_ok_iff.1 h
      cases h
      exact Nat.lt_succ_of_le (leaves_scanBracketStart mode cs hstart)
  by_cases hclose : c = ']'
  · subst hclose
    cases h
    rw [rest_closeBracket]
    exact Nat.lt_succ_self _
  rw [bracketStep_cons mode cs hopen hclose] at h
  split at h
  next op rest hop =>
    cases h
    exact length_operatorAt? _ hop
  next =>
    obtain ⟨member, hrange, h⟩ := bind_eq_ok_iff.1 h
    cases h
    exact Nat.lt_succ_of_le (leaves_scanRange mode (c :: cs) hrange)

/-- **A step inside of a bracket** leaves the parenthesis alone, or the bracket is about to end
without a `]`. -/
theorem bracketStep_concat {members : List NestedClass} {stack : List BracketFrame}
    {step : BracketStep} (h : bracketStep mode members stack (cs ++ [')']) = .ok step) :
    (∃ members stack left, step = .more members stack left ∧ left.length ≤ 1) ∨
      ∃ short, bracketStep mode members stack cs = .ok short ∧ step = short.concat := by
  rcases cs with _ | ⟨c, cs⟩
  · left
    rw [List.nil_append, bracketStep_cons mode [] (by decide) (by decide)] at h
    obtain ⟨member, hrange, h⟩ := bind_eq_ok_iff.1 h
    cases h
    exact ⟨_, _, _, rfl, Nat.le_succ_of_le (leaves_scanRange mode [')'] hrange)⟩
  by_cases hopen : c = '['
  · subst hopen
    rw [List.cons_append, bracketStep_open, scanNamedClass?_concat] at h
    rw [bracketStep_open]
    cases hnamed : scanNamedClass? cs with
    | some result =>
      rw [hnamed] at h
      obtain ⟨named, hclass, h⟩ := bind_eq_ok_iff.1 h
      cases h
      exact .inr ⟨_, bind_eq_ok_iff.2 ⟨named, hclass, rfl⟩, rfl⟩
    | none =>
      rw [hnamed] at h
      obtain ⟨start, hstart, h⟩ := bind_eq_ok_iff.1 h
      cases h
      rcases keeps_scanBracketStart mode cs hstart with hleft | ⟨rest, hrest, hshort⟩
      · exact .inl ⟨_, _, _, rfl, hleft⟩
      · rw [hshort]
        exact .inr ⟨_, rfl, by rw [hrest]; rfl⟩
  by_cases hclose : c = ']'
  · subst hclose
    cases h
    exact .inr ⟨_, rfl, (concat_closeBracket mode cs members stack).symm⟩
  rw [List.cons_append, bracketStep_cons mode _ hopen hclose, ← List.cons_append,
    operatorAt?_concat] at h
  rw [bracketStep_cons mode cs hopen hclose]
  cases hop : operatorAt? (c :: cs) with
  | some result =>
    rw [hop] at h
    cases h
    exact .inr ⟨_, rfl, rfl⟩
  | none =>
    rw [hop] at h
    obtain ⟨member, hrange, h⟩ := bind_eq_ok_iff.1 h
    cases h
    rcases keeps_scanRange mode (c :: cs) hrange with hleft | ⟨rest, hrest, hshort⟩
    · exact .inl ⟨_, _, _, rfl, hleft⟩
    · rw [hshort]
      exact .inr ⟨_, rfl, by rw [hrest]; rfl⟩

theorem leaves_bracketSteps (n : Nat) (members : List NestedClass) (stack : List BracketFrame) :
    Leaves (cs.length - 1) (bracketSteps mode n members stack cs) := by
  induction n generalizing members stack cs with
  | zero => exact leaves_error _
  | succ n ih =>
    have hlength := length_skipSpace_le mode.ignoreSpace cs
    rw [bracketSteps]
    cases hstep : bracketStep mode members stack (skipSpace mode.ignoreSpace cs) with
    | error error => exact leaves_error _
    | ok step =>
      have hshorter := length_bracketStep mode _ hstep
      cases step with
      | more members stack rest =>
        refine (ih rest members stack).mono ?_
        have hrest : rest.length < _ := hshorter
        omega
      | done whole rest =>
        refine leaves_ok ?_
        have hrest : rest.length < _ := hshorter
        omega

theorem keeps_bracketSteps {m : Nat} (hm : cs.length < m) (n : Nat) (members : List NestedClass)
    (stack : List BracketFrame) :
    Keeps 0 (bracketSteps mode n members stack (cs ++ [')']))
      (bracketSteps mode m members stack cs) := by
  induction n generalizing m members stack cs with
  | zero => exact keeps_error _
  | succ n ih =>
    obtain ⟨m, rfl⟩ := Nat.exists_eq_add_one.2 (Nat.zero_lt_of_lt hm)
    have hlength := length_skipSpace_le mode.ignoreSpace cs
    rw [bracketSteps, bracketSteps]
    rcases skipSpace_concat mode.ignoreSpace cs with h | h
    · rw [h]
      exact keeps_error _
    rw [h]
    cases hstep : bracketStep mode members stack (skipSpace mode.ignoreSpace cs ++ [')']) with
    | error error => exact keeps_error _
    | ok step =>
      rcases bracketStep_concat mode _ hstep with
        ⟨members, stack, left, rfl, hleft⟩ | ⟨short, hshort, rfl⟩
      · have hrest := leaves_bracketSteps mode left n members stack
        exact (hrest.mono (Nat.sub_le_of_le_add hleft)).keeps
      · rw [hshort]
        have hshorter := length_bracketStep mode _ hshort
        cases short with
        | more members stack rest =>
          have hrest : rest.length < _ := hshorter
          exact ih rest (by omega) members stack
        | done whole rest => exact keeps_ok whole rest

theorem leaves_scanBracket : Leaves cs.length (scanBracket mode cs) := by
  refine (leaves_scanBracketStart mode cs).bind fun start left hleft => ?_
  exact (leaves_bracketSteps mode left _ _ _).mono (Nat.le_trans (Nat.sub_le _ _) hleft)

/-- **A bracket expression** leaves the parenthesis alone. -/
theorem keeps_scanBracket : Keeps 0 (scanBracket mode (cs ++ [')'])) (scanBracket mode cs) := by
  refine (keeps_scanBracketStart mode cs).bind (fun start left hleft => ?_) fun start rest => ?_
  · exact (leaves_bracketSteps mode left _ _ _).mono (Nat.sub_le_of_le_add hleft)
  · exact keeps_bracketSteps mode rest (Nat.lt_succ_self _) _ _ _

end GlobTree
