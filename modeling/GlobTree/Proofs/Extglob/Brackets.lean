import GlobTree.Extglob.ToRegex
import GlobTree.Proofs.Regex.Reading
/-!
# Brackets as bracket expressions

The members of brackets are written as they are, but for a backslash before a few characters. The
minus sign is not one of them, so that it is read as a sign between the ends of a range, and two of
them as the sign of a difference, no matter whether the pattern had a backslash before it.

`readMembers` is the class that is read from members that were written in this way, which
`scanBracket_escapeClass` shows. There is one exactly if no range is reversed (`rangesOrdered`).
-/

namespace GlobTree.Extglob

/-- The class of the members that were read, as the right operand of a difference if there is a left
one. -/
def memberClass (left : Option NestedClass) (collected : List NestedClass) : NestedClass :=
  match left with
  | none => .union collected
  | some left =>
    let right := NestedClass.union collected
    ⟨.diff left.set right.set, max left.depth right.depth + 1⟩

/-- The class of some members after those that were read. -/
def readMembers (left : Option NestedClass) (collected : List NestedClass) :
    List Char → Except SyntaxError NestedClass
  | [] => .ok (memberClass left collected)
  | '-' :: '-' :: rest => readMembers (some (memberClass left collected)) [] rest
  | c :: '-' :: '-' :: rest =>
    readMembers (some (memberClass left (.flat (.single c) :: collected))) [] rest
  | c :: '-' :: d :: rest =>
    if c ≤ d then readMembers left (.flat (.range c d) :: collected) rest
    else .error .bracketRangeReversed
  | c :: rest => readMembers left (.flat (.single c) :: collected) rest

/-- The minus signs at the start of brackets, which stand for themselves. -/
def leadingSigns (members : List Char) : List CharClass :=
  (members.takeWhile (· = '-')).map .single

/-- The class of brackets around a class. -/
def closed (negated : Bool) (read : NestedClass) : NestedClass :=
  ⟨.complIf negated read.set, read.depth + 1⟩

/-- The class of the members of brackets, and how deep it is nested. -/
def readBracket (negated : Bool) (members : List Char) : Except SyntaxError NestedClass :=
  (readMembers none ((leadingSigns members).map .flat) (members.dropWhile (· = '-'))).map
    (closed negated)

/-- The class of the members of brackets. -/
def bracketClass (negated : Bool) (members : List Char) : Except SyntaxError CharClass :=
  (readBracket negated members).map (·.set)

/-- Where a minus sign is between two members, the smaller one is in front of it. Two signs in a row
are something else. -/
def rangesOrdered : List Char → Bool
  | [] => true
  | '-' :: '-' :: rest => rangesOrdered rest
  | _ :: '-' :: '-' :: rest => rangesOrdered rest
  | c :: '-' :: d :: rest => c ≤ d && rangesOrdered rest
  | _ :: rest => rangesOrdered rest

/-- **Members make a class if their ranges are ordered**, and none otherwise. -/
theorem readMembers_cases (members : List Char) (left : Option NestedClass)
    (collected : List NestedClass) :
    if rangesOrdered members then ∃ set, readMembers left collected members = .ok set
    else readMembers left collected members = .error .bracketRangeReversed := by
  fun_induction readMembers left collected members with
  | case1 => exact ⟨_, rfl⟩
  | case2 left collected rest ih => exact ih
  | case3 left collected c rest hc ih =>
    rw [rangesOrdered]
    · exact ih
    · exact hc
  | case4 left collected c d rest hc hd hle ih =>
    rw [rangesOrdered, decide_eq_true hle, Bool.true_and]
    · exact ih
    · exact hc
    · exact hd
  | case5 left collected c d rest hc hd hle =>
    rw [rangesOrdered, decide_eq_false hle, Bool.false_and]
    · rfl
    · exact hc
    · exact hd
  | case6 left collected c rest h₁ h₂ h₃ ih =>
    rw [rangesOrdered]
    · exact ih
    · exact h₁
    · exact h₂
    · exact h₃

/-! ## Reading them -/

variable (engine : Engine)

theorem escapeClass_append (a b : List Char) :
    escapeClass (a ++ b) = escapeClass a ++ escapeClass b := by
  simp [escapeClass, backslashed]

theorem escapeClass_cons (c : Char) (cs : List Char) :
    escapeClass (c :: cs) = escapeClass [c] ++ escapeClass cs :=
  escapeClass_append [c] cs

theorem escapeClass_sign (cs : List Char) : escapeClass ('-' :: cs) = '-' :: escapeClass cs := by
  rw [escapeClass_cons]
  rfl

theorem escapeClass_range (c d : Char) (cs rest : List Char) :
    escapeClass (c :: '-' :: d :: cs) ++ rest =
      escapeClass [c] ++ '-' :: (escapeClass [d] ++ (escapeClass cs ++ rest)) := by
  rw [escapeClass_cons, escapeClass_sign, escapeClass_cons d, List.append_assoc, List.cons_append,
    List.append_assoc]

theorem escapeClass_singleton (c : Char) :
    escapeClass [c] = if c ∈ classMetaCharacters then ['\\', c] else [c] := by
  simp [escapeClass, backslashed]

/-- A member takes up a place. -/
theorem length_lt_escapeClass (c : Char) (rest : List Char) :
    rest.length < (escapeClass [c] ++ rest).length := by
  rw [escapeClass_singleton, List.length_append]
  split <;> simp

theorem length_lt_signs (rest : List Char) : rest.length < ('-' :: '-' :: rest).length := by
  rw [List.length_cons, List.length_cons]
  omega

/-- How a member can start. -/
theorem exists_head_escapeClass (c : Char) (rest : List Char) :
    ∃ next after, escapeClass [c] ++ rest = next :: after ∧ next ≠ '^' ∧ next ≠ ']' ∧
      (c ≠ '-' → next ≠ '-') := by
  rw [escapeClass_singleton]
  split
  next => exact ⟨'\\', c :: rest, rfl, by decide, by decide, fun _ => by decide⟩
  next h =>
    simp only [classMetaCharacters, List.mem_cons, List.not_mem_nil, or_false, not_or] at h
    obtain ⟨-, -, hclose, hcaret, -, -⟩ := h
    exact ⟨c, rest, rfl, hcaret, hclose, id⟩

/-- A member that was written is read as itself. -/
theorem scanMember_escapeClass (c : Char) (rest : List Char) :
    scanMember (.plain engine) (escapeClass [c] ++ rest) = .ok (.literal c, rest) := by
  rw [escapeClass_singleton]
  split
  next h =>
    have hescapable : isEscapable c = true := by
      simp only [classMetaCharacters, List.mem_cons, List.not_mem_nil, or_false] at h
      rcases h with rfl | rfl | rfl | rfl | rfl | rfl <;> decide
    have hscan := scanEscape_of_isEscapable hescapable (.plain engine) rest
    show Except.bind (scanEscape (.plain engine) (c :: rest)) (asciiOnly _ _) = _
    rw [hscan]
    rfl
  next h =>
    have hc : c ≠ '\\' := fun hc => h (hc ▸ List.mem_cons_self)
    show ((if c = '\\' then _ else Except.ok (Escaped.literal c, rest)) >>= asciiOnly _ _) = _
    rw [if_neg hc]
    rfl

/-- A member that no range starts with. -/
theorem scanRange_single {c next : Char} {rest : List Char}
    (h : next ≠ '-' ∨ rest.head? = some ']' ∨ rest.head? = some '-') :
    scanRange (.plain engine) (escapeClass [c] ++ next :: rest) = .ok (.single c, next :: rest) := by
  rw [scanRange, scanMember_escapeClass engine]
  show (if next ≠ '-' ∨ rest.head? = some ']' ∨ rest.head? = some '-' then _ else _) = _
  rw [if_pos h]
  rfl

/-- A range between two members. -/
theorem scanRange_range {c d : Char} (hd : d ≠ '-') (rest : List Char) :
    scanRange (.plain engine) (escapeClass [c] ++ '-' :: (escapeClass [d] ++ rest)) =
      if c ≤ d then .ok (.range c d, rest) else .error .bracketRangeReversed := by
  have hnext : ¬ ('-' ≠ '-' ∨ (escapeClass [d] ++ rest).head? = some ']' ∨
      (escapeClass [d] ++ rest).head? = some '-') := by
    rw [escapeClass_singleton]
    split
    next => simp
    next h =>
      simp only [classMetaCharacters, List.mem_cons, List.not_mem_nil, or_false, not_or] at h
      simp [h, hd]
  rw [scanRange, scanMember_escapeClass engine]
  show (if '-' ≠ '-' ∨ (escapeClass [d] ++ rest).head? = some ']' ∨
    (escapeClass [d] ++ rest).head? = some '-' then _ else _) = _
  have hhigh : scanMember (.plain engine)
      (skipSpace (ScanMode.plain engine).ignoreSpace (escapeClass [d] ++ rest)) =
        .ok (.literal d, rest) := scanMember_escapeClass engine d rest
  rw [if_neg hnext, hhigh]
  rfl

variable (collected : List NestedClass) (stack : List BracketFrame)

/-- Unless two minus signs come next, a member or a range does. -/
theorem bracketStep_escapeClass {c : Char} {rest : List Char}
    (hsign : c = '-' → rest.head? ≠ some '-') :
    bracketStep (.plain engine) collected stack (escapeClass [c] ++ rest) =
      (scanRange (.plain engine) (escapeClass [c] ++ rest)).map fun result =>
        .more (.flat result.1 :: collected) stack result.2 := by
  rw [escapeClass_singleton]
  split
  next h => rfl
  next h =>
    simp only [classMetaCharacters, List.mem_cons, List.not_mem_nil, or_false, not_or] at h
    rw [List.cons_append, List.nil_append]
    unfold bracketStep
    split
    case h_7 =>
      cases scanRange (.plain engine) (c :: rest) <;> rfl
    all_goals simp_all

/-- A member that no range starts with is added. -/
theorem bracketStep_single {c next : Char} {rest : List Char} (hsign : c = '-' → next ≠ '-')
    (h : next ≠ '-' ∨ rest.head? = some ']' ∨ rest.head? = some '-') :
    bracketStep (.plain engine) collected stack (escapeClass [c] ++ next :: rest) =
      .ok (.more (.flat (.single c) :: collected) stack (next :: rest)) := by
  have hhead : c = '-' → (next :: rest).head? ≠ some '-' :=
    fun hc h => hsign hc (Option.some.inj h)
  rw [bracketStep_escapeClass engine collected stack hhead, scanRange_single engine h]
  rfl

/-- A range is added, unless it is reversed. -/
theorem bracketStep_range {c d : Char} (hc : c ≠ '-') (hd : d ≠ '-') (rest : List Char) :
    bracketStep (.plain engine) collected stack
        (escapeClass [c] ++ '-' :: (escapeClass [d] ++ rest)) =
      if c ≤ d then .ok (.more (.flat (.range c d) :: collected) stack rest)
      else .error .bracketRangeReversed := by
  rw [bracketStep_escapeClass engine collected stack fun h => absurd h hc, scanRange_range engine hd]
  split <;> rfl

/-- What is open in a bracket expression without brackets in it. -/
def frames (negated : Bool) : Option NestedClass → List BracketFrame
  | none => [.bracket negated []]
  | some left => [.operator .diff left, .bracket negated []]

variable (negated : Bool) (left : Option NestedClass)

theorem bracketStep_close (rest : List Char) :
    bracketStep (.plain engine) collected (frames negated left) (']' :: rest) =
      .ok (.done (closed negated (memberClass left collected)) rest) := by
  cases left <;> rfl

theorem bracketStep_difference (rest : List Char) :
    bracketStep (.plain engine) collected (frames negated left) ('-' :: '-' :: rest) =
      .ok (.more [] (frames negated (some (memberClass left collected))) rest) := by
  cases left <;> rfl

/-- Going on from a text in brackets leads to a result, with steps enough. -/
def LeadsTo (members : List NestedClass) (stack : List BracketFrame) (text : List Char)
    (result : Except SyntaxError (NestedClass × List Char)) : Prop :=
  ∀ n, text.length ≤ n → bracketSteps (.plain engine) n members stack text = result

section LeadsTo

variable {engine} {members members' : List NestedClass} {stack stack' : List BracketFrame}
  {text rest : List Char} {result : Except SyntaxError (NestedClass × List Char)}

theorem bracketSteps_succ (n : Nat) :
    bracketSteps (.plain engine) (n + 1) members stack text =
      (bracketStep (.plain engine) members stack text).bind fun
        | .more members stack rest => bracketSteps (.plain engine) n members stack rest
        | .done set rest => .ok (set, rest) := by
  have hskip : skipSpace (ScanMode.plain engine).ignoreSpace text = text := rfl
  rw [bracketSteps, hskip]
  cases bracketStep (.plain engine) members stack text with
  | error error => rfl
  | ok step => cases step <;> rfl

/-- A step that is not the last. -/
theorem LeadsTo.of_more
    (hstep : bracketStep (.plain engine) members stack text = .ok (.more members' stack' rest))
    (hlength : rest.length < text.length) (h : LeadsTo engine members' stack' rest result) :
    LeadsTo engine members stack text result := by
  intro n hn
  obtain ⟨n, rfl⟩ : ∃ m, n = m + 1 := ⟨n - 1, by omega⟩
  rw [bracketSteps_succ, hstep]
  exact h n (by omega)

/-- The end of the brackets. -/
theorem LeadsTo.of_done {set : NestedClass} (hne : text ≠ [])
    (hstep : bracketStep (.plain engine) members stack text = .ok (.done set rest)) :
    LeadsTo engine members stack text (.ok (set, rest)) := by
  intro n hn
  have hpos := List.length_pos_iff.2 hne
  obtain ⟨n, rfl⟩ : ∃ m, n = m + 1 := ⟨n - 1, by omega⟩
  rw [bracketSteps_succ, hstep]
  rfl

theorem LeadsTo.of_error {error : SyntaxError} (hne : text ≠ [])
    (hstep : bracketStep (.plain engine) members stack text = .error error) :
    LeadsTo engine members stack text (.error error) := by
  intro n hn
  have hpos := List.length_pos_iff.2 hne
  obtain ⟨n, rfl⟩ : ∃ m, n = m + 1 := ⟨n - 1, by omega⟩
  rw [bracketSteps_succ, hstep]
  rfl

end LeadsTo

/-- **Members that were written are read as the class that they make.** -/
theorem leadsTo_members (members rest : List Char) :
    LeadsTo engine collected (frames negated left) (escapeClass members ++ ']' :: rest)
      ((readMembers left collected members).map fun read => (closed negated read, rest)) := by
  fun_induction readMembers left collected members with
  | case1 left collected =>
    exact .of_done (List.cons_ne_nil _ _) (bracketStep_close engine collected negated left rest)
  | case2 left collected members ih =>
    rw [escapeClass_sign, escapeClass_sign]
    exact .of_more (bracketStep_difference engine collected negated left _) (length_lt_signs _) ih
  | case3 left collected c members hc ih =>
    have hsign : c = '-' → '-' ≠ '-' := fun h => (hc h).elim
    have hfirst : bracketStep (.plain engine) collected (frames negated left)
        (escapeClass [c] ++ '-' :: '-' :: (escapeClass members ++ ']' :: rest)) = _ :=
      bracketStep_single engine collected _ hsign (.inr (.inr rfl))
    have hsecond := bracketStep_difference engine (.flat (.single c) :: collected) negated left
      (escapeClass members ++ ']' :: rest)
    rw [escapeClass_cons, escapeClass_sign, escapeClass_sign, List.append_assoc]
    exact .of_more hfirst (length_lt_escapeClass _ _) (.of_more hsecond (length_lt_signs _) ih)
  | case4 left collected c d members hc hd hle ih =>
    have hstep := bracketStep_range engine collected (frames negated left) hc hd
      (escapeClass members ++ ']' :: rest)
    have hshorter := length_lt_escapeClass d (escapeClass members ++ ']' :: rest)
    rw [escapeClass_range]
    refine .of_more (hstep.trans (if_pos hle)) ?_ ih
    have hfirst := length_lt_escapeClass c ('-' :: (escapeClass [d] ++
      (escapeClass members ++ ']' :: rest)))
    rw [List.length_cons] at hfirst
    omega
  | case5 left collected c d members hc hd hle =>
    have hstep := bracketStep_range engine collected (frames negated left) hc hd
      (escapeClass members ++ ']' :: rest)
    rw [escapeClass_range]
    exact .of_error (by simp) (hstep.trans (if_neg hle))
  | case6 left collected c members h₁ h₂ h₃ ih =>
    obtain ⟨next, after, hnext, hsign, hsingle⟩ : ∃ next after,
        escapeClass members ++ ']' :: rest = next :: after ∧ (c = '-' → next ≠ '-') ∧
          (next ≠ '-' ∨ after.head? = some ']' ∨ after.head? = some '-') := by
      rcases members with _ | ⟨d, members⟩
      · exact ⟨']', rest, rfl, fun _ => by decide, .inl (by decide)⟩
      · by_cases hd : d = '-'
        · subst hd
          rcases members with _ | ⟨e, members⟩
          · exact ⟨'-', ']' :: rest, rfl, fun hc => (h₁ [] hc rfl).elim, .inr (.inl rfl)⟩
          · exact (h₃ e members rfl).elim
        · obtain ⟨next, after, hnext, -, -, hne⟩ := exists_head_escapeClass d
            (escapeClass members ++ ']' :: rest)
          rw [escapeClass_cons, List.append_assoc]
          exact ⟨next, after, hnext, fun _ => hne hd, .inl (hne hd)⟩
    have hstep := bracketStep_single engine collected (frames negated left) hsign hsingle
    rw [escapeClass_cons, List.append_assoc]
    rw [hnext] at ih ⊢
    exact .of_more hstep (length_lt_escapeClass _ _) ih

/-! ## The start of the brackets -/

theorem takeSigns_escapeClass (members rest : List Char) {n : Nat}
    (hn : (escapeClass members ++ ']' :: rest).length ≤ n) :
    takeSigns false n (escapeClass members ++ ']' :: rest) =
      (leadingSigns members,
        escapeClass (members.dropWhile (· = '-')) ++ ']' :: rest) := by
  induction members generalizing n with
  | nil =>
    obtain ⟨n, rfl⟩ : ∃ m, n = m + 1 := ⟨n - 1, by simp at hn; omega⟩
    rfl
  | cons c members ih =>
    have hlonger := length_lt_escapeClass c (escapeClass members ++ ']' :: rest)
    rw [escapeClass_cons, List.append_assoc] at hn ⊢
    obtain ⟨n, rfl⟩ : ∃ m, n = m + 1 := ⟨n - 1, by omega⟩
    by_cases hc : c = '-'
    · subst hc
      have htext : escapeClass ['-'] ++ (escapeClass members ++ ']' :: rest) =
        '-' :: (escapeClass members ++ ']' :: rest) := rfl
      have hsigns : takeSigns false n (skipSpace false (escapeClass members ++ ']' :: rest)) = _ :=
        ih (by omega)
      rw [htext, takeSigns, if_pos rfl, hsigns]
      rfl
    · obtain ⟨next, after, hnext, -, -, hne⟩ := exists_head_escapeClass c
        (escapeClass members ++ ']' :: rest)
      have htake : leadingSigns (c :: members) = [] := by simp [leadingSigns, hc]
      have hdrop : (c :: members).dropWhile (· = '-') = c :: members := by simp [hc]
      have htext : escapeClass (c :: members) ++ ']' :: rest = next :: after := by
        rw [escapeClass_cons, List.append_assoc, hnext]
      rw [htake, hdrop, htext, hnext, takeSigns, if_neg (hne hc)]

/-- After the caret, the start of the brackets are the signs. -/
theorem scanBracketStart_escapeClass (negated : Bool) {members : List Char} (hne : members ≠ [])
    (rest : List Char) :
    scanBracketStart (.plain engine)
        ((if negated then ['^'] else []) ++ (escapeClass members ++ ']' :: rest)) =
      .ok ((negated, leadingSigns members),
        escapeClass (members.dropWhile (· = '-')) ++ ']' :: rest) := by
  have hsigns := takeSigns_escapeClass members rest (Nat.le_refl _)
  obtain ⟨c, members, rfl⟩ := List.exists_cons_of_ne_nil hne
  -- Neither a caret nor a closing bracket can come first, because they have a backslash.
  obtain ⟨next, after, hnext, hcaret, hclose, -⟩ := exists_head_escapeClass c
    (escapeClass members ++ ']' :: rest)
  have htext : escapeClass (c :: members) ++ ']' :: rest = next :: after := by
    rw [escapeClass_cons, List.append_assoc, hnext]
  obtain ⟨first, others, hfirst, hplain⟩ : ∃ first others,
      escapeClass ((c :: members).dropWhile (· = '-')) ++ ']' :: rest = first :: others ∧
        (leadingSigns (c :: members) = [] → first ≠ ']') := by
    by_cases hc : c = '-'
    · obtain ⟨first, others, hfirst⟩ := List.exists_cons_of_ne_nil
        (List.append_ne_nil_of_right_ne_nil (escapeClass ((c :: members).dropWhile (· = '-')))
          (List.cons_ne_nil ']' rest))
      exact ⟨first, others, hfirst, fun h => by simp [leadingSigns, hc] at h⟩
    · have hdrop : (c :: members).dropWhile (· = '-') = c :: members := by simp [hc]
      exact ⟨next, after, by rw [hdrop, htext], fun _ => hclose⟩
  rw [hfirst] at hsigns ⊢
  rw [htext] at hsigns ⊢
  generalize leadingSigns (c :: members) = signs at hsigns hplain
  cases negated with
  | true =>
    simp only [scanBracketStart, skipSpace, if_true, List.cons_append, List.nil_append,
      Bool.false_eq_true, if_false, hsigns, Bool.not_true, Bool.and_false]
    cases signs <;> simp_all
  | false =>
    simp only [scanBracketStart, skipSpace, List.nil_append, Bool.false_eq_true, if_false,
      Bool.not_true, Bool.and_false]
    cases signs <;> simp_all

theorem scanBracket_escapeClass (negated : Bool) {members : List Char} (hne : members ≠ [])
    (rest : List Char) :
    scanBracket (.plain engine)
        ((if negated then ['^'] else []) ++ (escapeClass members ++ ']' :: rest)) =
      (readBracket negated members).map fun read => (read, rest) := by
  have hread := leadsTo_members engine ((leadingSigns members).map .flat) negated none
    (members.dropWhile (· = '-')) rest
  rw [scanBracket, scanBracketStart_escapeClass engine negated hne]
  show bracketSteps (.plain engine) _ _ (frames negated none) _ = _
  rw [hread _ (Nat.le_succ _), readBracket]
  cases readMembers none ((leadingSigns members).map .flat) (members.dropWhile (· = '-')) <;> rfl

/-- The bracket expression of some members. -/
def bracketRegex (negated : Bool) (members : List Char) : List Char :=
  '[' :: ((if negated then ['^'] else []) ++ (escapeClass members ++ [']']))

/-- **A bracket expression is read as the class of its members.** -/
theorem alters_bracketRegex (negated : Bool) {members : List Char} (hne : members ≠ [])
    (rest : List Char) :
    Alters (bracketRegex negated members) rest fun branch =>
      (readBracket negated members).map fun read => branch.add (.one read.set) read.depth :=
  Alters.bracket fun engine => by simpa using scanBracket_escapeClass engine negated hne rest

end GlobTree.Extglob
