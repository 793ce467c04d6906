import GlobTree.Regex.Scan
import Mathlib.Tactic.SplitIfs
/-!
# Scanners and a closing parenthesis at the end

A text is put between `(?:` and `)` to make one item of it. Does a scanner that is given the text
with the `)` do what it does without? It need not: the `)` may end up in a comment, or become a
member of a bracket that has no end. But then the scanner reads to the end of the text, and nothing
is left that could close the group. This is what `Scan.Keeps` says, and it is shown for one scanner
after the other. `Scan.Leaves` bounds what a scanner leaves.

Some scanners stop before a mark without reading it, and may take the `)` for this mark. Whoever
called them reads it then, so that it is enough that no more than one character is left.
-/

namespace GlobTree

namespace Scan

variable {α β : Type} {near bound : Nat} {long short : Except SyntaxError (α × List Char)}

/-- The scan leaves at most so many characters, if it succeeds. -/
def Leaves (bound : Nat) (scan : Except SyntaxError (α × List Char)) : Prop :=
  ∀ ⦃a left⦄, scan = .ok (a, left) → left.length ≤ bound

/-- The scan of a text with a parenthesis at its end is like the scan of the text alone, with the
parenthesis left over, unless at most `near` characters are left. -/
def Keeps (near : Nat) (long short : Except SyntaxError (α × List Char)) : Prop :=
  ∀ ⦃a left⦄, long = .ok (a, left) →
    left.length ≤ near ∨ ∃ rest, left = rest ++ [')'] ∧ short = .ok (a, rest)

theorem leaves_error (error : SyntaxError) :
    Leaves bound (.error error : Except SyntaxError (α × List Char)) := nofun

theorem leaves_ok {a : α} {left : List Char} (h : left.length ≤ bound) :
    Leaves bound (.ok (a, left)) := by
  rintro _ _ ⟨⟩
  exact h

theorem Leaves.mono (h : Leaves bound long) (hle : bound ≤ near) : Leaves near long :=
  fun _ _ hok => Nat.le_trans (h hok) hle

theorem Leaves.bind {next : α × List Char → Except SyntaxError (β × List Char)}
    (h : Leaves bound long)
    (hnext : ∀ a left, left.length ≤ bound → Leaves near (next (a, left))) :
    Leaves near (long >>= next) := by
  cases long with
  | error error => exact leaves_error error
  | ok result => exact hnext result.1 result.2 (h rfl)

theorem leaves_after {γ : Type} {next : γ → Except SyntaxError (α × List Char)}
    (result : Except SyntaxError γ) (h : ∀ c, Leaves bound (next c)) :
    Leaves bound (result >>= next) := by
  cases result with
  | error error => exact leaves_error error
  | ok c => exact h c

theorem Leaves.map (h : Leaves bound long) (f : α → β) :
    Leaves bound (long.map fun (a, rest) => (f a, rest)) := by
  cases long with
  | error error => exact leaves_error error
  | ok result => exact leaves_ok (h rfl)

theorem keeps_error (error : SyntaxError) : Keeps near (.error error) short := nofun

theorem keeps_ok (a : α) (rest : List Char) :
    Keeps near (.ok (a, rest ++ [')'])) (.ok (a, rest)) := by
  rintro _ _ ⟨⟩
  exact .inr ⟨rest, rfl, rfl⟩

theorem keeps_after {γ : Type} {next next' : γ → Except SyntaxError (α × List Char)}
    (result : Except SyntaxError γ) (h : ∀ c, Keeps near (next c) (next' c)) :
    Keeps near (result >>= next) (result >>= next') := by
  cases result with
  | error error => exact keeps_error error
  | ok c => exact h c

theorem Leaves.keeps (h : Leaves near long) : Keeps near long short :=
  fun _ _ hok => .inl (h hok)

theorem Keeps.mono {limit : Nat} (h : Keeps near long short) (hle : near ≤ limit) :
    Keeps limit long short := by
  intro a left hok
  rcases h hok with hleft | hrest
  · exact .inl (Nat.le_trans hleft hle)
  · exact .inr hrest

theorem Keeps.map (h : Keeps near long short) (f : α → β) :
    Keeps near (long.map fun (a, rest) => (f a, rest))
      (short.map fun (a, rest) => (f a, rest)) := by
  cases long with
  | error error => exact keeps_error error
  | ok result =>
    rintro _ _ ⟨⟩
    rcases h rfl with hleft | ⟨rest, hrest, rfl⟩
    · exact .inl hleft
    · exact .inr ⟨rest, hrest, rfl⟩

/-- **Scans one after the other.** -/
theorem Keeps.bind {next next' : α × List Char → Except SyntaxError (β × List Char)} {limit : Nat}
    (h : Keeps near long short)
    (hnear : ∀ a left, left.length ≤ near → Leaves limit (next (a, left)))
    (hnext : ∀ a rest, Keeps limit (next (a, rest ++ [')'])) (next' (a, rest))) :
    Keeps limit (long >>= next) (short >>= next') := by
  cases long with
  | error error => exact keeps_error error
  | ok result =>
    obtain ⟨a, left⟩ := result
    rcases h rfl with hleft | ⟨rest, rfl, rfl⟩
    · exact (hnear a left hleft).keeps
    · exact hnext a rest

end Scan

open Scan

variable (ignoreSpace : Bool) (cs : List Char)

/-! ## Blanks and comments -/

theorem length_dropSpace_le (comment : Bool) : (dropSpace comment cs).length ≤ cs.length := by
  induction cs generalizing comment with
  | nil => exact Nat.le_refl _
  | cons c cs ih =>
    rw [dropSpace, List.length_cons]
    split_ifs
    · exact Nat.le_succ_of_le (ih _)
    · exact Nat.le_succ_of_le (ih _)
    · exact Nat.le_succ_of_le (ih _)
    · exact Nat.le_refl _

theorem length_skipSpace_le : (skipSpace ignoreSpace cs).length ≤ cs.length := by
  rw [skipSpace]
  split_ifs
  · exact length_dropSpace_le cs false
  · exact Nat.le_refl _

theorem dropSpace_concat (comment : Bool) :
    dropSpace comment (cs ++ [')']) = [] ∨
      dropSpace comment (cs ++ [')']) = dropSpace comment cs ++ [')'] := by
  induction cs generalizing comment with
  | nil =>
    cases comment
    · exact .inr (by decide +kernel)
    · exact .inl rfl
  | cons c cs ih =>
    rw [List.cons_append, dropSpace, dropSpace]
    split_ifs
    · exact ih _
    · exact ih _
    · exact ih _
    · exact .inr rfl

/-- **A comment may take the parenthesis with it.** -/
theorem skipSpace_concat :
    skipSpace ignoreSpace (cs ++ [')']) = [] ∨
      skipSpace ignoreSpace (cs ++ [')']) = skipSpace ignoreSpace cs ++ [')'] := by
  cases ignoreSpace
  · exact .inr rfl
  · exact dropSpace_concat cs false

theorem dropSpace_eq_nil_of_concat {comment : Bool} (h : dropSpace comment (cs ++ [')']) = []) :
    dropSpace comment cs = [] := by
  induction cs generalizing comment with
  | nil => rfl
  | cons c cs ih =>
    rw [List.cons_append, dropSpace] at h
    rw [dropSpace]
    split_ifs at h ⊢
    · exact ih h
    · exact ih h
    · exact ih h

/-- A comment that takes the parenthesis has no end without it either. -/
theorem skipSpace_eq_nil_of_concat (h : skipSpace ignoreSpace (cs ++ [')']) = []) :
    skipSpace ignoreSpace cs = [] := by
  cases ignoreSpace
  · exact absurd h (List.append_ne_nil_of_right_ne_nil cs (List.cons_ne_nil _ _))
  · exact dropSpace_eq_nil_of_concat cs h

/-- A scan after blanks and comments. -/
theorem keeps_skipSpace {α : Type} {near : Nat}
    {scan scan' : List Char → Except SyntaxError (α × List Char)} (hend : Leaves near (scan []))
    (h : Keeps near (scan (skipSpace ignoreSpace cs ++ [')'])) (scan' (skipSpace ignoreSpace cs))) :
    Keeps near (scan (skipSpace ignoreSpace (cs ++ [')']))) (scan' (skipSpace ignoreSpace cs)) := by
  rcases skipSpace_concat ignoreSpace cs with hskip | hskip
  · rw [hskip]
    exact hend.keeps
  · rw [hskip]
    exact h

theorem dropWhile_isBlank_concat :
    (cs ++ [')']).dropWhile isBlank = cs.dropWhile isBlank ++ [')'] := by
  induction cs with
  | nil => decide +kernel
  | cons c cs ih =>
    rw [List.cons_append, List.dropWhile_cons, List.dropWhile_cons, ih]
    split_ifs <;> rfl

/-! ## Counts -/

theorem length_takeRun_le (kind : Char → Bool) (n : Nat) :
    (takeRun ignoreSpace kind n cs).2.length ≤ cs.length := by
  induction n generalizing cs with
  | zero => exact Nat.le_refl _
  | succ n ih =>
    cases cs with
    | nil => exact Nat.le_refl _
    | cons c cs =>
      rw [takeRun]
      split_ifs
      · exact Nat.le_succ_of_le (Nat.le_trans (ih _) (length_skipSpace_le ignoreSpace cs))
      · exact Nat.le_refl _

/-- A run is as long with the parenthesis as without, even if a comment in it takes the parenthesis
along. -/
theorem takeRun_concat (kind : Char → Bool) (hkind : kind ')' = false) {n m : Nat}
    (hn : cs.length < n) (hm : cs.length ≤ m) :
    (∃ run, takeRun ignoreSpace kind n (cs ++ [')']) = (run, [])) ∨
      ∃ run rest, takeRun ignoreSpace kind n (cs ++ [')']) = (run, rest ++ [')']) ∧
        takeRun ignoreSpace kind m cs = (run, rest) := by
  induction n generalizing m cs with
  | zero => exact absurd hn (Nat.not_lt_zero _)
  | succ n ih =>
    cases cs with
    | nil =>
      refine .inr ⟨[], [], ?_, by cases m <;> rfl⟩
      rw [List.nil_append, takeRun, hkind]
      rfl
    | cons c cs =>
      obtain ⟨m, rfl⟩ := Nat.exists_eq_add_one.2 (Nat.zero_lt_of_lt hm)
      have hlength := length_skipSpace_le ignoreSpace cs
      rw [List.length_cons] at hn hm
      rw [List.cons_append, takeRun, takeRun]
      split_ifs
      · rcases skipSpace_concat ignoreSpace cs with h | h
        · rw [h]
          exact .inl ⟨[c], by cases n <;> rfl⟩
        · rw [h]
          rcases ih (skipSpace ignoreSpace cs) (by omega) (m := m) (by omega) with
            ⟨run, hlong⟩ | ⟨run, rest, hlong, hshort⟩
          · rw [hlong]
            exact .inl ⟨c :: run, rfl⟩
          · rw [hlong, hshort]
            exact .inr ⟨c :: run, rest, rfl, rfl⟩
      · exact .inr ⟨[], c :: cs, rfl, rfl⟩

theorem leaves_scanCount : Leaves cs.length (scanCount ignoreSpace cs) := by
  have hblanks (cs : List Char) : (cs.dropWhile isBlank).length ≤ cs.length :=
    (List.dropWhile_suffix _).length_le
  rw [scanCount]
  dsimp only
  split_ifs
  · exact leaves_error _
  · refine leaves_ok (Nat.le_trans (length_skipSpace_le _ _) (Nat.le_trans (hblanks _) ?_))
    exact Nat.le_trans (length_takeRun_le _ _ _ _) (hblanks cs)
  · exact leaves_error _

theorem keeps_scanCount :
    Keeps 0 (scanCount ignoreSpace (cs ++ [')'])) (scanCount ignoreSpace cs) := by
  rw [scanCount, scanCount, dropWhile_isBlank_concat]
  generalize cs.dropWhile isBlank = cs
  dsimp only
  rcases takeRun_concat ignoreSpace cs (·.isDigit) rfl (n := (cs ++ [')']).length)
    (by simp) (Nat.le_refl _) with ⟨digits, hlong⟩ | ⟨digits, rest, hlong, hshort⟩
  · have hnone : skipSpace ignoreSpace ([].dropWhile isBlank) = [] := by cases ignoreSpace <;> rfl
    rw [hlong, hnone]
    apply Leaves.keeps
    split_ifs
    · exact leaves_error _
    · exact leaves_ok (Nat.le_refl _)
    · exact leaves_error _
  · rw [hlong, hshort, dropWhile_isBlank_concat]
    dsimp only
    generalize rest.dropWhile isBlank = rest
    split_ifs
    · exact keeps_error _
    · rcases skipSpace_concat ignoreSpace rest with h | h
      · rw [h]
        exact Leaves.keeps (leaves_ok (Nat.le_refl _))
      · rw [h]
        exact keeps_ok _ _
    · exact keeps_error _

/-! ## Escapes -/

theorem leaves_literalOfCode (code : Nat) : Leaves cs.length (literalOfCode code cs) := by
  rw [literalOfCode]
  split
  · exact leaves_ok (Nat.le_refl _)
  · exact leaves_error _

theorem keeps_literalOfCode (code : Nat) :
    Keeps 0 (literalOfCode code (cs ++ [')'])) (literalOfCode code cs) := by
  rw [literalOfCode, literalOfCode]
  split
  · exact keeps_ok _ _
  · exact keeps_error _

theorem leaves_scanHexDigits (n code : Nat) :
    Leaves cs.length (scanHexDigits ignoreSpace n code cs) := by
  induction n generalizing code cs with
  | zero =>
    cases cs with
    | nil => exact leaves_error _
    | cons c cs =>
      rw [scanHexDigits]
      split
      · exact leaves_error _
      · exact (leaves_literalOfCode _ _).mono (Nat.le_succ_of_le (length_skipSpace_le _ _))
  | succ n ih =>
    cases cs with
    | nil => exact leaves_error _
    | cons c cs =>
      rw [scanHexDigits]
      split
      · exact leaves_error _
      · exact (ih _ _).mono (Nat.le_succ_of_le (length_skipSpace_le _ _))

theorem keeps_scanHexDigits (n code : Nat) :
    Keeps 0 (scanHexDigits ignoreSpace n code (cs ++ [')']))
      (scanHexDigits ignoreSpace n code cs) := by
  induction n generalizing code cs with
  | zero =>
    cases cs with
    | nil => exact keeps_error _
    | cons c cs =>
      rw [List.cons_append, scanHexDigits, scanHexDigits]
      split
      · exact keeps_error _
      · exact keeps_skipSpace ignoreSpace cs (leaves_literalOfCode [] _) (keeps_literalOfCode _ _)
  | succ n ih =>
    cases cs with
    | nil => exact keeps_error _
    | cons c cs =>
      rw [List.cons_append, scanHexDigits, scanHexDigits]
      split
      · exact keeps_error _
      · exact keeps_skipSpace ignoreSpace cs (leaves_scanHexDigits ignoreSpace [] n _) (ih _ _)

theorem leaves_scanHexBraced (n : Nat) (code : Option Nat) :
    Leaves cs.length (scanHexBraced ignoreSpace n code cs) := by
  induction n generalizing code cs with
  | zero => cases cs <;> exact leaves_error _
  | succ n ih =>
    cases cs with
    | nil => exact leaves_error _
    | cons c cs =>
      have hlength : (skipSpace ignoreSpace cs).length ≤ (c :: cs).length :=
        Nat.le_succ_of_le (length_skipSpace_le ignoreSpace cs)
      unfold scanHexBraced
      dsimp only
      split_ifs
      · cases code with
        | none => exact leaves_error _
        | some code => exact (leaves_literalOfCode _ code).mono hlength
      · split
        · exact leaves_error _
        · exact (ih _ _).mono hlength

theorem keeps_scanHexBraced {m : Nat} (hm : cs.length ≤ m) (n : Nat) (code : Option Nat) :
    Keeps 0 (scanHexBraced ignoreSpace n code (cs ++ [')']))
      (scanHexBraced ignoreSpace m code cs) := by
  induction n generalizing m code cs with
  | zero => cases cs <;> exact keeps_error _
  | succ n ih =>
    cases cs with
    | nil => exact keeps_error _
    | cons c cs =>
      obtain ⟨m, rfl⟩ := Nat.exists_eq_add_one.2 (Nat.zero_lt_of_lt hm)
      have hlength := length_skipSpace_le ignoreSpace cs
      rw [List.length_cons] at hm
      rw [List.cons_append]
      unfold scanHexBraced
      dsimp only
      rcases skipSpace_concat ignoreSpace cs with h | h
      · rw [h]
        apply Leaves.keeps
        split_ifs
        · cases code with
          | none => exact leaves_error _
          | some code => exact leaves_literalOfCode [] code
        · split
          · exact leaves_error _
          · exact leaves_scanHexBraced ignoreSpace [] n _
      · rw [h]
        split_ifs
        · cases code with
          | none => exact keeps_error _
          | some code => exact keeps_literalOfCode _ code
        · split
          · exact keeps_error _
          · exact ih _ (by omega) _

variable (mode : ScanMode)

theorem leaves_asciiOnly (error : SyntaxError) (escaped : Escaped) {bound : Nat}
    (h : cs.length ≤ bound) : Leaves bound (asciiOnly mode error (escaped, cs)) := by
  cases escaped with
  | literal c =>
    rw [asciiOnly]
    split_ifs
    · exact leaves_error _
    · exact leaves_ok h
  | _ => exact leaves_ok h

theorem keeps_asciiOnly (error : SyntaxError) (escaped : Escaped) :
    Keeps 0 (asciiOnly mode error (escaped, cs ++ [')'])) (asciiOnly mode error (escaped, cs)) := by
  cases escaped with
  | literal c =>
    rw [asciiOnly, asciiOnly]
    split_ifs
    · exact keeps_error _
    · exact keeps_ok _ cs
  | _ => exact keeps_ok _ cs

theorem leaves_scanHex (digits : Nat) : Leaves cs.length (scanHex mode digits cs) := by
  have hlength := length_skipSpace_le mode.ignoreSpace cs
  rw [scanHex]
  split
  · exact leaves_error _
  next c cs' h =>
    rw [h] at hlength
    have hdigits := (leaves_scanHexDigits mode.ignoreSpace (c :: cs') (digits - 1) 0).mono hlength
    dsimp only
    split_ifs
    · refine (leaves_scanHexBraced mode.ignoreSpace _ _ _).mono ?_
      exact Nat.le_trans (length_skipSpace_le _ _) (Nat.le_of_succ_le hlength)
    · exact hdigits.bind fun escaped left h => leaves_asciiOnly left mode _ escaped h
    · exact hdigits

theorem keeps_scanHex (digits : Nat) :
    Keeps 0 (scanHex mode digits (cs ++ [')'])) (scanHex mode digits cs) := by
  rw [scanHex, scanHex]
  rcases skipSpace_concat mode.ignoreSpace cs with h | h
  · rw [h]
    exact keeps_error _
  · rw [h]
    cases skipSpace mode.ignoreSpace cs with
    | nil =>
      have hlong (n : Nat) : scanHexDigits mode.ignoreSpace n 0 [')'] = .error .hexDigitInvalid := by
        cases n <;> rfl
      dsimp only [List.nil_append]
      rw [if_neg (by decide), hlong]
      split_ifs
      · exact keeps_error _
      · exact keeps_error _
    | cons c cs =>
      have hdigits := keeps_scanHexDigits mode.ignoreSpace (c :: cs) (digits - 1) 0
      rw [List.cons_append] at hdigits ⊢
      dsimp only
      split_ifs
      · rcases skipSpace_concat mode.ignoreSpace cs with h | h
        · rw [h]
          exact keeps_error _
        · rw [h]
          exact keeps_scanHexBraced mode.ignoreSpace _ (Nat.le_refl _) _ _
      · exact hdigits.bind (fun escaped left h => leaves_asciiOnly left mode _ escaped h)
          fun escaped rest => keeps_asciiOnly rest mode _ escaped
      · exact hdigits

theorem leaves_scanPropertyName (n : Nat) :
    Leaves cs.length (scanPropertyName ignoreSpace n cs) := by
  induction n generalizing cs with
  | zero => cases cs <;> exact leaves_error _
  | succ n ih =>
    cases cs with
    | nil => exact leaves_error _
    | cons c cs =>
      rw [scanPropertyName]
      split_ifs
      · exact leaves_ok (Nat.le_succ _)
      · exact ((ih _).map _).mono (Nat.le_succ_of_le (length_skipSpace_le ignoreSpace cs))

theorem keeps_scanPropertyName {m : Nat} (hm : cs.length ≤ m) (n : Nat) :
    Keeps 0 (scanPropertyName ignoreSpace n (cs ++ [')'])) (scanPropertyName ignoreSpace m cs) := by
  induction n generalizing m cs with
  | zero => cases cs <;> exact keeps_error _
  | succ n ih =>
    cases cs with
    | nil =>
      refine Leaves.keeps ?_
      rw [List.nil_append, scanPropertyName, if_neg (by decide)]
      cases ignoreSpace <;> cases n <;> exact leaves_error _
    | cons c cs =>
      obtain ⟨m, rfl⟩ := Nat.exists_eq_add_one.2 (Nat.zero_lt_of_lt hm)
      have hlength := length_skipSpace_le ignoreSpace cs
      rw [List.length_cons] at hm
      rw [List.cons_append, scanPropertyName, scanPropertyName]
      split_ifs
      · exact keeps_ok _ _
      · rcases skipSpace_concat ignoreSpace cs with h | h
        · rw [h]
          exact ((leaves_scanPropertyName ignoreSpace [] n).map _).keeps
        · rw [h]
          exact (ih _ (by omega)).map _

theorem leaves_scanPropertyText : Leaves cs.length (scanPropertyText ignoreSpace cs) := by
  have hlength := length_skipSpace_le ignoreSpace cs
  rw [scanPropertyText]
  split
  · exact leaves_error _
  next c cs' h =>
    rw [h] at hlength
    have hrest : (skipSpace ignoreSpace cs').length ≤ cs.length :=
      Nat.le_trans (length_skipSpace_le _ _) (Nat.le_of_succ_le hlength)
    dsimp only
    split_ifs
    · exact (leaves_scanPropertyName ignoreSpace _ _).mono hrest
    · exact leaves_error _
    · exact leaves_ok hrest

theorem keeps_scanPropertyText :
    Keeps 0 (scanPropertyText ignoreSpace (cs ++ [')'])) (scanPropertyText ignoreSpace cs) := by
  rw [scanPropertyText, scanPropertyText]
  rcases skipSpace_concat ignoreSpace cs with h | h
  · rw [h]
    exact keeps_error _
  · rw [h]
    cases skipSpace ignoreSpace cs with
    | nil =>
      have hnone : skipSpace ignoreSpace [] = [] := by cases ignoreSpace <;> rfl
      dsimp only [List.nil_append]
      rw [if_neg (by decide), if_neg (by decide), hnone]
      exact Leaves.keeps (leaves_ok (Nat.le_refl _))
    | cons c cs =>
      rw [List.cons_append]
      dsimp only
      split_ifs
      · rcases skipSpace_concat ignoreSpace cs with h | h
        · rw [h]
          exact keeps_error _
        · rw [h]
          exact keeps_scanPropertyName ignoreSpace _ (Nat.le_refl _) _
      · exact keeps_error _
      · rcases skipSpace_concat ignoreSpace cs with h | h
        · rw [h]
          exact Leaves.keeps (leaves_ok (Nat.le_refl _))
        · rw [h]
          exact keeps_ok _ _

theorem leaves_scanProperty (negated : Bool) :
    Leaves cs.length (scanProperty mode negated cs) :=
  (leaves_scanPropertyText mode.ignoreSpace cs).bind fun _ _ h => leaves_after _ fun _ => leaves_ok h

theorem keeps_scanProperty (negated : Bool) :
    Keeps 0 (scanProperty mode negated (cs ++ [')'])) (scanProperty mode negated cs) :=
  (keeps_scanPropertyText mode.ignoreSpace cs).bind
    (fun _ _ h => leaves_after _ fun _ => leaves_ok h)
    fun _ rest => keeps_after _ fun _ => keeps_ok _ rest

theorem scanWordEdge_brace :
    scanWordEdge ignoreSpace ('\x7b' :: cs) =
      let inner := skipSpace ignoreSpace cs
      if inner.head?.any isEdgeChar then
        let run := takeRun ignoreSpace isEdgeChar inner.length inner
        closeWordEdge run.1 run.2
      else .ok (.either, '\x7b' :: cs) := rfl

theorem scanWordEdge_of_ne {c : Char} (hc : c ≠ '\x7b') :
    scanWordEdge ignoreSpace (c :: cs) = .ok (.either, c :: cs) := by
  simp [scanWordEdge, hc]

theorem leaves_closeWordEdge (name : List Char) : Leaves cs.length (closeWordEdge name cs) := by
  unfold closeWordEdge
  split
  · split
    · exact leaves_ok (Nat.le_succ _)
    · exact leaves_error _
  · exact leaves_error _

theorem keeps_closeWordEdge (name : List Char) :
    Keeps 0 (closeWordEdge name (cs ++ [')'])) (closeWordEdge name cs) := by
  rcases cs with _ | ⟨c, cs⟩
  · exact keeps_error _
  · by_cases hc : c = '}'
    · subst hc
      rw [List.cons_append, closeWordEdge, closeWordEdge]
      split
      · exact keeps_ok _ cs
      · exact keeps_error _
    · have hother (cs : List Char) :
          closeWordEdge name (c :: cs) = .error .wordEdgeUnclosed := by
        simp [closeWordEdge, hc]
      rw [List.cons_append, hother]
      exact keeps_error _

theorem leaves_scanWordEdge : Leaves cs.length (scanWordEdge ignoreSpace cs) := by
  rcases cs with _ | ⟨c, cs⟩
  · exact leaves_ok (Nat.le_refl _)
  by_cases hc : c = '\x7b'
  · subst hc
    rw [scanWordEdge_brace]
    dsimp only
    split_ifs
    · refine (leaves_closeWordEdge _ _).mono (Nat.le_succ_of_le ?_)
      exact Nat.le_trans (length_takeRun_le _ _ _ _) (length_skipSpace_le _ _)
    · exact leaves_ok (Nat.le_refl _)
  · rw [scanWordEdge_of_ne _ _ hc]
    exact leaves_ok (Nat.le_refl _)

/-- If the brace opens no name, it is left for a repetition, also where a comment takes the
parenthesis. -/
theorem keeps_scanWordEdge :
    Keeps 0 (scanWordEdge ignoreSpace (cs ++ [')'])) (scanWordEdge ignoreSpace cs) := by
  rcases cs with _ | ⟨c, cs⟩
  · exact keeps_ok WordEdge.either []
  rw [List.cons_append]
  by_cases hc : c = '\x7b'
  · subst hc
    rw [scanWordEdge_brace, scanWordEdge_brace]
    rcases skipSpace_concat ignoreSpace cs with h | h
    · have hnone : skipSpace ignoreSpace cs = [] := skipSpace_eq_nil_of_concat ignoreSpace cs h
      rw [h, hnone]
      exact keeps_ok WordEdge.either ('\x7b' :: cs)
    · rw [h]
      generalize skipSpace ignoreSpace cs = inner
      have hhead : (inner ++ [')']).head?.any isEdgeChar = inner.head?.any isEdgeChar := by
        cases inner <;> rfl
      dsimp only
      rw [hhead]
      split_ifs
      · rcases takeRun_concat ignoreSpace inner isEdgeChar rfl (n := (inner ++ [')']).length)
          (by simp) (Nat.le_refl _) with ⟨name, hlong⟩ | ⟨name, rest, hlong, hshort⟩
        · rw [hlong]
          exact keeps_error _
        · rw [hlong, hshort]
          exact keeps_closeWordEdge rest name
      · exact keeps_ok WordEdge.either ('\x7b' :: cs)
  · rw [scanWordEdge_of_ne _ _ hc, scanWordEdge_of_ne _ _ hc]
    exact keeps_ok WordEdge.either (c :: cs)

theorem leaves_scanEscape : Leaves (cs.length - 1) (scanEscape mode cs) := by
  cases cs with
  | nil => exact leaves_error _
  | cons c cs =>
    have hok (escaped : Escaped) :
        Leaves cs.length (.ok (escaped, cs) : Except SyntaxError (Escaped × List Char)) :=
      leaves_ok (Nat.le_refl _)
    have hmembers (negated : Bool) (set : CharClass) :
        Leaves cs.length ((mode.complIf negated set).map fun set => (Escaped.members set, cs)) :=
      leaves_after (mode.complIf negated set) fun set => hok (.members set)
    unfold scanEscape
    rw [List.length_cons, Nat.add_sub_cancel]
    dsimp only
    split_ifs
    · exact hok _
    · exact leaves_error _
    · split
      all_goals first
        | exact leaves_scanHex cs mode _
        | exact leaves_scanProperty cs mode _
        | exact (leaves_scanWordEdge mode.ignoreSpace cs).map fun edge =>
            Escaped.condition (.word edge mode.words)
        | exact hmembers _ _
        | exact hok _
        | exact leaves_error _

theorem keeps_scanEscape : Keeps 0 (scanEscape mode (cs ++ [')'])) (scanEscape mode cs) := by
  cases cs with
  | nil => exact (leaves_scanEscape [')'] mode).keeps
  | cons c cs =>
    have hmembers (negated : Bool) (set : CharClass) :
        Keeps 0 ((mode.complIf negated set).map fun set => (Escaped.members set, cs ++ [')']))
          ((mode.complIf negated set).map fun set => (Escaped.members set, cs)) :=
      keeps_after (mode.complIf negated set) fun set => keeps_ok (Escaped.members set) cs
    rw [List.cons_append]
    unfold scanEscape
    dsimp only
    split_ifs
    · exact keeps_ok _ _
    · exact keeps_error _
    · split
      all_goals first
        | exact keeps_scanHex cs mode _
        | exact keeps_scanProperty cs mode _
        | exact (keeps_scanWordEdge mode.ignoreSpace cs).map fun edge =>
            Escaped.condition (.word edge mode.words)
        | exact hmembers _ _
        | exact keeps_ok _ _
        | exact keeps_error _

/-! ## Flags and names -/

theorem leaves_scanFlags (seen : List Char) (flags : PatternFlags) :
    Leaves cs.length (scanFlags seen flags cs) := by
  induction cs generalizing seen flags with
  | nil => exact leaves_error _
  | cons c cs ih =>
    rw [scanFlags]
    split_ifs
    · exact leaves_error _
    · exact leaves_ok (Nat.le_refl _)
    · exact leaves_error _
    · exact (ih _ _).mono (Nat.le_succ _)
    · split <;> exact leaves_error _
    · split
      · exact leaves_error _
      · exact (ih _ _).mono (Nat.le_succ _)

theorem keeps_scanFlags (seen : List Char) (flags : PatternFlags) :
    Keeps 1 (scanFlags seen flags (cs ++ [')'])) (scanFlags seen flags cs) := by
  induction cs generalizing seen flags with
  | nil => exact (leaves_scanFlags [')'] seen flags).keeps
  | cons c cs ih =>
    rw [List.cons_append, scanFlags, scanFlags]
    split_ifs
    · exact keeps_error _
    · exact keeps_ok _ (c :: cs)
    · exact keeps_error _
    · exact ih _ _
    · split <;> exact keeps_error _
    · split
      · exact keeps_error _
      · exact ih _ _

theorem leaves_scanName (first : Bool) : Leaves cs.length (scanName first cs) := by
  induction cs generalizing first with
  | nil => exact leaves_error _
  | cons c cs ih =>
    rw [scanName, List.length_cons]
    split_ifs
    · exact leaves_error _
    · exact leaves_ok (Nat.le_succ _)
    · exact ((ih false).map _).mono (Nat.le_succ _)
    · exact leaves_error _

theorem keeps_scanName (first : Bool) :
    Keeps 0 (scanName first (cs ++ [')'])) (scanName first cs) := by
  induction cs generalizing first with
  | nil =>
    have hname : isNameChar first ')' = false := by cases first <;> decide +kernel
    have hlong : scanName first [')'] = .error .groupNameInvalid := by
      rw [scanName, hname]
      rfl
    rw [List.nil_append, hlong]
    exact keeps_error _
  | cons c cs ih =>
    rw [List.cons_append, scanName, scanName]
    split_ifs
    · exact keeps_error _
    · exact keeps_ok _ _
    · exact (ih false).map _
    · exact keeps_error _

end GlobTree
