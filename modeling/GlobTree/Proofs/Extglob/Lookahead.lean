import GlobTree.Proofs.Extglob.Cut
import Mathlib.Algebra.Ring.Parity
/-!
# How far the grammar looks ahead

How a piece is cut off depends on little of what comes after it: on the next character, on how far a
run of plain text goes, and on the partner of a quote. So if a pattern has no quotes and no backslash
that is waiting for a character (`ClosedOff`), and one of the characters `/`, `|` and `)` comes after
it, then it is cut as if nothing came after it (`cut_append`). The open groups around it make no
difference either, but for brackets and for the complaint about bars (`cut_of_outside`).

No piece depends on text that comes after it: what is cut off in front of some text is cut off in
the same way if that text is taken away (`cut_of_append`).
-/

namespace GlobTree.Extglob

/-! ## Patterns that wait for nothing -/

/-- The number of backslashes at the end of a text. -/
def finalBackslashes (text : List Char) : Nat := (text.reverse.takeWhile (· = '\\')).length

/-- No quote in a text can find its partner after it, and no backslash takes the next character with
it. -/
structure ClosedOff (text : List Char) : Prop where
  unquoted : '"' ∉ text
  even : Even (finalBackslashes text)

instance (text : List Char) : Decidable (ClosedOff text) :=
  decidable_of_iff ('"' ∉ text ∧ Even (finalBackslashes text))
    ⟨fun h => ⟨h.1, h.2⟩, fun h => ⟨h.1, h.2⟩⟩

/-- A piece that takes its backslashes in pairs does not change which of the later ones are paired. -/
theorem even_finalBackslashes_append {piece : List Char} (h : Even (finalBackslashes piece))
    (text : List Char) :
    Even (finalBackslashes (piece ++ text)) ↔ Even (finalBackslashes text) := by
  rw [finalBackslashes, finalBackslashes, List.reverse_append, List.takeWhile_append]
  split
  next hall =>
    rw [List.length_append, hall, Nat.even_add]
    exact iff_true_right h
  next => rfl

theorem finalBackslashes_eq_zero {text : List Char} (h : '\\' ∉ text) :
    finalBackslashes text = 0 := by
  rw [finalBackslashes, List.length_eq_zero_iff, List.takeWhile_eq_nil_iff]
  intro hpos hlast
  rw [← of_decide_eq_true hlast] at h
  exact h (List.mem_reverse.1 (List.getElem_mem hpos))

/-- An escape takes its backslash with it, and the backslash after it if there is one. -/
theorem even_finalBackslashes_escape (d : Char) : Even (finalBackslashes ['\\', d]) := by
  by_cases hd : d = '\\'
  · subst hd
    exact ⟨1, rfl⟩
  · have h : finalBackslashes ['\\', d] = 0 := by simp [finalBackslashes, hd]
    simp [h]

/-! ## Pieces -/

variable {innermost : Option Kind} {c d : Char} {cs rest : List Char} {use : Use Kind} {more : Nat}

/-- The characters of a text after its first one that are of some class. -/
theorem take_run {p : Char → Bool} (hc : c ≠ '\\') (hp : p '\\' = false) :
    (cs.takeWhile p).length ≤ cs.length ∧ '\\' ∉ c :: cs.take (cs.takeWhile p).length := by
  have hrun := List.takeWhile_prefix p (l := cs)
  refine ⟨hrun.length_le, ?_⟩
  rw [← List.prefix_iff_eq_take.1 hrun, List.mem_cons, not_or]
  refine ⟨hc.symm, fun h => ?_⟩
  rw [List.mem_takeWhile_imp h] at hp
  cases hp

/-- **A piece other than an escape or a quoted text has no backslashes.** -/
theorem no_backslash_of_cut (hquote : c ≠ '"') (hescape : c ≠ '\\')
    (hcut : cut innermost c cs = (use, more)) : more ≤ cs.length ∧ '\\' ∉ c :: cs.take more := by
  have hone : 0 ≤ cs.length ∧ '\\' ∉ c :: cs.take 0 := by simp [hescape.symm]
  have htwo {e : Char} (he : e ≠ '\\') (h : cs.head? = some e) :
      1 ≤ cs.length ∧ '\\' ∉ c :: cs.take 1 := by
    obtain ⟨tail, rfl⟩ := List.head?_eq_some_iff.1 h
    simp [hescape.symm, he.symm]
  rw [cut, if_neg fun h => hescape h.1] at hcut
  split at hcut
  next =>
    rw [cutInBracket, if_neg hescape] at hcut
    split at hcut <;> cases hcut
    · exact hone
    · exact take_run hescape rfl
  next =>
    unfold cutOutside at hcut
    dsimp only at hcut
    split at hcut
    next hsign =>
      cases hcut
      exact htwo (by decide) hsign.2
    next =>
      split at hcut
      case h_1 => exact absurd rfl hquote
      case h_6 =>
        split at hcut <;> cases hcut
        next hnext => rcases hnext with h | h <;> exact htwo (by decide) h
        next => exact hone
      case h_8 =>
        split at hcut <;> cases hcut
        next hnext => exact htwo (by decide) hnext
        next => exact hone
      case h_17 =>
        cases hcut
        exact take_run hescape rfl
      all_goals
        cases hcut
        exact hone

/-- A backslash takes the next character with it. -/
theorem cut_escape (d : Char) (tail : List Char) :
    cut innermost '\\' (d :: tail) = (.token .escape, 1) :=
  if_pos ⟨rfl, List.cons_ne_nil d tail⟩

/-- A backslash in a pattern that is closed off has a character after it. -/
theorem ClosedOff.ne_nil_of_backslash (h : ClosedOff ('\\' :: cs)) : cs ≠ [] := by
  rintro rfl
  exact absurd h.even (by decide)

/-- **What is left of a pattern that is closed off is closed off**, and no piece of it goes beyond
its end. -/
theorem ClosedOff.drop (h : ClosedOff (c :: cs)) (hcut : cut innermost c cs = (use, more)) :
    more ≤ cs.length ∧ ClosedOff (cs.drop more) := by
  have hpiece : more ≤ cs.length ∧ Even (finalBackslashes (c :: cs.take more)) := by
    by_cases hescape : c = '\\'
    · subst hescape
      obtain ⟨d, tail, rfl⟩ := List.exists_cons_of_ne_nil h.ne_nil_of_backslash
      rw [cut_escape] at hcut
      cases hcut
      exact ⟨Nat.le_add_left 1 _, even_finalBackslashes_escape d⟩
    · have hquote : c ≠ '"' := fun hc => h.unquoted (hc ▸ List.mem_cons_self)
      obtain ⟨hmore, hno⟩ := no_backslash_of_cut hquote hescape hcut
      exact ⟨hmore, by simp [finalBackslashes_eq_zero hno]⟩
  obtain ⟨hmore, heven⟩ := hpiece
  refine ⟨hmore, fun hmem => h.unquoted (List.mem_cons_of_mem c (List.mem_of_mem_drop hmem)), ?_⟩
  have hsplit : c :: cs = (c :: cs.take more) ++ cs.drop more := by
    rw [List.cons_append, List.take_append_drop]
  rw [← even_finalBackslashes_append heven, ← hsplit]
  exact h.even

/-! ## What comes after a pattern -/

/-- The characters that no piece before them takes with it. -/
def isSeparator (c : Char) : Bool := c ∈ ['/', '|', ')']

/-- A text comes after a pattern, and the pattern does not wait for it. -/
def Separate (text rest : List Char) : Prop :=
  rest = [] ∨ ClosedOff text ∧ ∃ d tail, rest = d :: tail ∧ isSeparator d

/-- What is left of a text after its first piece does not wait for what comes after it either, and
the piece ends in the text. -/
theorem Separate.drop (h : Separate (c :: cs) rest) (hcut : cut innermost c cs = (use, more)) :
    Separate (cs.drop more) rest ∧ (cs ++ rest).take more = cs.take more ∧
      (cs ++ rest).drop more = cs.drop more ++ rest := by
  rcases h with rfl | ⟨closed, hrest⟩
  · simp only [List.append_nil, and_self, and_true]
    exact .inl rfl
  · obtain ⟨hmore, hclosed⟩ := closed.drop hcut
    exact ⟨.inr ⟨hclosed, hrest⟩, List.take_append_of_le_length hmore,
      List.drop_append_of_le_length hmore⟩

theorem eq_of_isSeparator (h : isSeparator d) : d = '/' ∨ d = '|' ∨ d = ')' := by
  simpa [isSeparator] using h

/-- A run of plain text ends before a separator. -/
theorem takeWhile_isPlain_append (hd : isSeparator d) :
    (cs ++ d :: rest).takeWhile isPlain = cs.takeWhile isPlain := by
  have hplain : ¬ isPlain d := by
    rcases eq_of_isSeparator hd with rfl | rfl | rfl <;> decide
  rw [List.takeWhile_append, List.takeWhile_cons_of_neg hplain, List.append_nil]
  split
  next hall => exact ((List.takeWhile_prefix isPlain).eq_of_length hall).symm
  next => rfl

/-- A run of text in brackets that ends before the text does ends there whatever comes after. -/
theorem takeWhile_isMember_append (h : (cs.takeWhile isMember).length < cs.length) :
    (cs ++ rest).takeWhile isMember = cs.takeWhile isMember := by
  rw [List.takeWhile_append, if_neg (Nat.ne_of_lt h)]

/-- Outside of brackets and quotes, only the next character counts and how far plain text goes. -/
theorem cutOutside_congr {other : List Char} (hquote : c ≠ '"')
    (hnext : ∀ e ∈ ['(', '!', '^', '*'], cs.head? = some e ↔ other.head? = some e)
    (hplain : cs.takeWhile isPlain = other.takeWhile isPlain) :
    cutOutside innermost c cs = cutOutside innermost c other := by
  have htake (e : Char) (he : e ∈ ['(', '!', '^', '*']) (h : cs.head? = some e) :
      cs.take 1 = other.take 1 := by
    obtain ⟨_, rfl⟩ := List.head?_eq_some_iff.1 h
    obtain ⟨_, rfl⟩ := List.head?_eq_some_iff.1 ((hnext e he).1 h)
    rfl
  unfold cutOutside
  dsimp only
  simp only [← hnext '(' (by simp), ← hnext '*' (by simp), ← hnext '!' (by simp),
    ← hnext '^' (by simp), hplain]
  by_cases hsign : isSign c = true ∧ cs.head? = some '('
  · rw [if_pos hsign, if_pos hsign]
  rw [if_neg hsign, if_neg hsign]
  split
  case h_1 => exact absurd rfl hquote
  case h_6 =>
    split
    next hnegated =>
      rcases hnegated with h | h <;> rw [htake _ (by simp) h]
    next => rfl
  all_goals rfl

theorem cutOutside_append (hd : isSeparator d) (hquote : c ≠ '"') :
    cutOutside innermost c (cs ++ d :: rest) = cutOutside innermost c cs := by
  refine cutOutside_congr hquote (fun e he => ?_) (takeWhile_isPlain_append hd)
  cases cs with
  | cons first tail => rfl
  | nil =>
    have hne : d ≠ e := by
      rintro rfl
      rcases eq_of_isSeparator hd with rfl | rfl | rfl <;> exact absurd he (by decide)
    simp [hne]

/-- **A pattern is cut as if nothing came after it**, if it does not wait for what comes. Text in
brackets must have its end in the pattern. -/
theorem cut_append (separate : Separate (c :: cs) rest)
    (hinside : innermost = some .bracket → c ≠ ']' → cs.drop (cut innermost c cs).2 ≠ []) :
    cut innermost c (cs ++ rest) = cut innermost c cs := by
  rcases separate with rfl | ⟨closed, d, tail, rfl, hd⟩
  · rw [List.append_nil]
  have hquote : c ≠ '"' := fun hc => closed.unquoted (hc ▸ List.mem_cons_self)
  by_cases hescape : c = '\\'
  · subst hescape
    obtain ⟨e, others, rfl⟩ := List.exists_cons_of_ne_nil closed.ne_nil_of_backslash
    rw [List.cons_append, cut_escape, cut_escape]
  · have houtside {text : List Char} : ¬ (c = '\\' ∧ text ≠ []) := fun h => hescape h.1
    rw [cut, if_neg houtside] at hinside ⊢
    rw [cut, if_neg houtside]
    by_cases hbracket : innermost = some .bracket
    · rw [if_pos hbracket, if_pos hbracket]
      rw [if_pos hbracket] at hinside
      rw [cutInBracket, cutInBracket]
      by_cases hclose : c = ']'
      · rw [if_pos hclose, if_pos hclose]
      · have hmore := hinside hbracket hclose
        rw [cutInBracket, if_neg hclose, if_neg hescape, ne_eq, List.drop_eq_nil_iff,
          Nat.not_le] at hmore
        rw [takeWhile_isMember_append hmore]
    · rw [if_neg hbracket, if_neg hbracket]
      exact cutOutside_append hd hquote

/-- In brackets, every piece but their end is a token. -/
theorem exists_token_of_cut_bracket (hend : c ≠ ']') (hcut : cut (some .bracket) c cs = (use, more)) :
    ∃ kind, use = .token kind none := by
  rw [cut, if_pos rfl, cutInBracket, if_neg hend] at hcut
  split at hcut
  · cases hcut
    exact ⟨.escape, rfl⟩
  · split at hcut <;> cases hcut <;> exact ⟨.text, rfl⟩

/-! ## What a piece needs -/

/-- A run of characters that ends in the first part of a text ends there without the rest. -/
theorem length_takeWhile_of_append {p : Char → Bool}
    (h : ((cs ++ rest).takeWhile p).length ≤ cs.length) :
    (cs.takeWhile p).length = ((cs ++ rest).takeWhile p).length := by
  rw [List.takeWhile_append] at h ⊢
  split at h
  next hall =>
    rw [if_pos hall]
    rw [List.length_append] at h ⊢
    omega
  next hall => rw [if_neg hall]

/-- A character other than a quote or a backslash is passed over in a quoted text. -/
theorem quoteEnd_cons (hquote : c ≠ '"') (hescape : c ≠ '\\') :
    quoteEnd (c :: cs) = (quoteEnd cs).map (· + 1) := by
  rw [quoteEnd, if_neg hquote]
  · exact fun h => absurd h hescape
  · exact fun _ _ h => absurd h hescape

/-- A quote whose partner is found has the same partner if more text comes. -/
theorem quoteEnd_append {n : Nat} (h : quoteEnd cs = some n) (rest : List Char) :
    quoteEnd (cs ++ rest) = some n := by
  fun_induction quoteEnd cs generalizing n with
  | case1 | case2 => cases h
  | case3 c cs ih =>
    obtain ⟨m, hm, rfl⟩ := Option.map_eq_some_iff.1 h
    simp only [List.cons_append, quoteEnd, ih hm, Option.map_some]
  | case4 cs => exact h
  | case5 c cs hlast hescape hquote ih =>
    obtain ⟨m, hm, rfl⟩ := Option.map_eq_some_iff.1 h
    rw [List.cons_append, quoteEnd_cons hquote (ne_backslash hlast hescape), ih hm,
      Option.map_some]

theorem quoteEnd_pos {n : Nat} (h : quoteEnd cs = some n) : 0 < n := by
  fun_induction quoteEnd cs generalizing n with
  | case1 | case2 => cases h
  | case4 =>
    cases h
    exact Nat.one_pos
  | case3 | case5 =>
    obtain ⟨m, -, rfl⟩ := Option.map_eq_some_iff.1 h
    exact Nat.succ_pos _

/-- A quote whose partner is not there may find it in the text that comes. -/
theorem length_lt_of_quoteEnd_append {n : Nat} (hnone : quoteEnd cs = none)
    (h : quoteEnd (cs ++ rest) = some n) : cs.length < n := by
  fun_induction quoteEnd cs generalizing n with
  | case1 => exact quoteEnd_pos h
  | case2 =>
    cases rest with
    | nil => cases h
    | cons d tail =>
      obtain ⟨m, -, rfl⟩ := Option.map_eq_some_iff.1 h
      exact Nat.lt_add_left m Nat.one_lt_two
  | case3 c cs ih =>
    obtain ⟨m, hm, rfl⟩ := Option.map_eq_some_iff.1 h
    have hlt := ih (Option.map_eq_none_iff.1 hnone) hm
    simp only [List.length_cons]
    omega
  | case4 cs => cases hnone
  | case5 c cs hlast hescape hquote ih =>
    rw [List.cons_append, quoteEnd_cons hquote (ne_backslash hlast hescape)] at h
    obtain ⟨m, hm, rfl⟩ := Option.map_eq_some_iff.1 h
    have hlt := ih (Option.map_eq_none_iff.1 hnone) hm
    simp only [List.length_cons]
    omega

/-- The partner of a quote is found without the text that comes after it. -/
theorem quoteEnd_of_append {n : Nat} (h : quoteEnd (cs ++ rest) = some n) (hn : n ≤ cs.length) :
    quoteEnd cs = some n := by
  cases hend : quoteEnd cs with
  | none => exact absurd hn (Nat.not_le.2 (length_lt_of_quoteEnd_append hend h))
  | some m => rw [← quoteEnd_append hend rest, h]

theorem cutOutside_of_append (hcut : cutOutside innermost c (cs ++ rest) = (use, more))
    (hmore : more ≤ cs.length) : cutOutside innermost c cs = (use, more) := by
  -- A character that comes next comes next in the first part, unless that is empty.
  have hnext (d : Char) (h : 1 ≤ cs.length) : (cs ++ rest).head? = some d ↔ cs.head? = some d := by
    cases cs with
    | nil => cases h
    | cons => rfl
  have hmine {d : Char} (h : cs.head? = some d) : (cs ++ rest).head? = some d := by
    rw [List.head?_append, h, Option.some_or]
  unfold cutOutside at hcut ⊢
  dsimp only at hcut ⊢
  split at hcut
  next hsign =>
    cases hcut
    rw [hnext '(' hmore] at hsign
    rw [if_pos hsign]
  next hsign =>
    rw [if_neg fun h => hsign ⟨h.1, hmine h.2⟩]
    split at hcut
    case h_1 =>
      cases hend : quoteEnd (cs ++ rest) with
      | some n =>
        rw [hend] at hcut
        cases hcut
        rw [quoteEnd_of_append hend hmore]
      | none =>
        rw [hend] at hcut
        cases hmy : quoteEnd cs with
        | some n => cases hend.symm.trans (quoteEnd_append hmy rest)
        | none => exact hcut
    case h_6 =>
      split at hcut <;> cases hcut
      next h =>
        rw [hnext '!' hmore, hnext '^' hmore] at h
        rw [if_pos h, List.take_append_of_le_length hmore]
      next h => rw [if_neg fun hmy => h (hmy.imp hmine hmine)]
    case h_8 =>
      split at hcut <;> cases hcut
      next h =>
        rw [hnext '*' hmore] at h
        rw [if_pos h]
      next h => rw [if_neg fun hmy => h (hmine hmy)]
    case h_17 =>
      cases hcut
      rw [length_takeWhile_of_append hmore]
    all_goals exact hcut

/-- **A piece needs no text after it.** It is cut off in the same way if the text ends with it or
later. -/
theorem cut_of_append (hcut : cut innermost c (cs ++ rest) = (use, more))
    (hmore : more ≤ cs.length) : cut innermost c cs = (use, more) := by
  rw [cut] at hcut ⊢
  split at hcut
  next hescape =>
    cases hcut
    rw [if_pos ⟨hescape.1, List.ne_nil_of_length_pos hmore⟩]
  next hescape =>
    rw [if_neg fun h => hescape ⟨h.1, List.append_ne_nil_of_left_ne_nil h.2 rest⟩]
    split at hcut
    next hbracket =>
      rw [if_pos hbracket]
      rw [cutInBracket] at hcut ⊢
      split at hcut
      next hclose => rwa [if_pos hclose]
      next hclose =>
        rw [if_neg hclose]
        split at hcut
        next hlast => rwa [if_pos hlast]
        next hlast =>
          cases hcut
          rw [if_neg hlast, length_takeWhile_of_append hmore]
    next hbracket =>
      rw [if_neg hbracket]
      exact cutOutside_of_append hcut hmore

/-! ## What is around a pattern -/

/-- **A pattern is cut as if it stood alone** wherever it does not stand in brackets, if there is
nothing to complain about when it stands alone. -/
theorem cut_of_outside (houtside : innermost ≠ some .bracket)
    (hquiet : ∀ kind complaint, use ≠ .token kind (some complaint))
    (hcut : cut none c cs = (use, more)) : cut innermost c cs = (use, more) := by
  rw [cut] at hcut ⊢
  split
  next hescape =>
    rw [if_pos hescape] at hcut
    exact hcut
  next hescape =>
    rw [if_neg hescape, if_neg (by simp)] at hcut
    unfold cutOutside at hcut ⊢
    dsimp only at hcut ⊢
    by_cases hsign : isSign c = true ∧ cs.head? = some '('
    · rw [if_pos hsign] at hcut ⊢
      exact hcut
    · rw [if_neg hsign] at hcut ⊢
      split at hcut
      case h_12 =>
        cases hcut
        exact absurd rfl (hquiet .pipe pipeComplaint)
      all_goals exact hcut

end GlobTree.Extglob
