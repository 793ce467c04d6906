import GlobTree.Rule
import GlobTree.Proofs.Text
/-!
# Rules of simple shapes

A rule is anchored, so that all its ways start at the head of the text, and a search only follows
the threads that are there at first (`Regex.follow`). For a few shapes of rules this can be carried
out once and for all: one character, two characters, a run of characters of one class, and a
character with an optional character of another class in front or behind.

What is found is said by `Rule.Finds`.
-/

namespace GlobTree

/-- What a rule recognises at the head of a text `c :: cs`: the number of characters after the first
one, with the texts of its two named groups. -/
def Rule.Finds (rule : Rule) (c : Char) (cs : List Char) :
    Option (Option String × Option String × Nat) → Prop
  | none => rule.matchHead (c :: cs) = none
  | some (lead, trail, more) => ∃ groups,
    rule.matchHead (c :: cs) = some ⟨String.ofList (c :: cs.take more), lead, trail, groups⟩

namespace Regex

/-- Goes on with the threads that are there, to the end of the text. -/
def follow : (before rest : List Char) → (count : Nat) → Progress → Option Match
  | _, [], _, progress => progress.best
  | before, c :: rest, count, progress =>
    let frontier := advance ⟨c :: before, rest, count + 1⟩ c progress.threads
    follow (c :: before) rest (count + 1) (progress.update frontier (count + 1))

/-- Without threads nothing more is found. -/
theorem follow_none (before rest : List Char) (count : Nat) (best : Option Match) :
    follow before rest count ⟨[], best⟩ = best := by
  induction rest generalizing before count with
  | nil => rfl
  | cons c rest ih => exact ih (c :: before) (count + 1)

/-- A search that does not float follows its threads. -/
theorem run_eq_follow (a : Regex) (before rest : List Char) (count : Nat) (progress : Progress) :
    a.run false before rest count progress = follow before rest count progress := by
  induction rest generalizing before count progress with
  | nil => rfl
  | cons c rest ih =>
    obtain ⟨threads, best⟩ := progress
    cases threads with
    | nil =>
      rw [follow_none]
      simp [run]
    | cons thread threads => exact ih _ _ _

/-- **The search with an anchored expression follows the ways from the start of the text.** -/
theorem search_anchored (a : Regex) (text : List Char) :
    (seq (.assert .textStart) a).search text =
      follow [] text 0 (Progress.update ⟨[], none⟩
        (a.enter ⟨[], text, 0⟩ [] (resume ⟨[], text, 0⟩ []) ⟨0, []⟩ {}) 0) := by
  have hanchored : (seq (.assert .textStart) a).isAnchored = true := rfl
  rw [search, hanchored, searchWith, Bool.not_true, run_eq_follow]
  rfl

end Regex

namespace Frontier

/-- A label that was not visited, while no way has ended. -/
theorem visit_new {frontier : Frontier} {label : Nat} (ended : frontier.ended = none)
    (new : frontier.visited.contains label = false) (ways : Frontier → Frontier) :
    frontier.visit label ways = ways { frontier with visited := frontier.visited.insert label } := by
  rw [visit, isClosed, ended, new]
  rfl

end Frontier

namespace Rule

variable {pattern : String} {names : List (String × Nat)}

open Regex

/-- A rule finds nothing where its expression does not match. -/
theorem finds_none {a : Regex} {c : Char} {cs : List Char} (h : a.search (c :: cs) = none) :
    (Rule.mk pattern a names).Finds c cs none := by
  show Rule.matchHead _ _ = none
  rw [matchHead, h]
  rfl

/-- What a rule finds where its expression matches the first character and more. -/
theorem finds_some {a : Regex} {c : Char} {cs : List Char} {more : Nat}
    {captures : List (Nat × Stretch)}
    (h : a.search (c :: cs) = some ⟨⟨0, more + 1⟩, captures⟩) :
    let text (name : String) := (names.lookup name).bind fun index =>
      (captures.lookup index).map fun stretch => String.ofList (stretch.of (c :: cs))
    (Rule.mk pattern a names).Finds c cs (some (text "prefix", text "suffix", more)) := by
  have hof : Stretch.of ⟨0, more + 1⟩ (c :: cs) = c :: cs.take more := rfl
  intro text
  refine ⟨(List.range a.groupCount).map fun index =>
    (captures.lookup (index + 1)).map fun stretch => String.ofList (stretch.of (c :: cs)), ?_⟩
  rw [matchHead, h]
  simp only [Option.bind_some, hof, List.isEmpty_cons, Bool.false_eq_true, if_false]
  rfl

/-- **One character of a class.** -/
theorem finds_one (a : CharClass) (c : Char) (cs : List Char) :
    (Rule.mk pattern (.seq (.assert .textStart) (.one 0 a)) []).Finds c cs
      (if a.contains c then some (none, none, 0) else none) := by
  have hsearch : (seq (.assert .textStart) (.one 0 a)).search (c :: cs) =
      if a.contains c then some ⟨⟨0, 1⟩, []⟩ else none := by
    rw [search_anchored]
    cases hc : a.contains c <;>
      simp [enter, Frontier.visit_new, Frontier.push, Progress.update, follow, advance, hc, resume,
        Frontier.finish, History.matchUpTo, follow_none]
  split
  next h => exact finds_some (hsearch.trans (if_pos h))
  next h => exact finds_none (hsearch.trans (if_neg h))

/-- **One character each of two classes.** -/
theorem finds_two (a b : CharClass) (c : Char) (cs : List Char) :
    (Rule.mk pattern (.seq (.assert .textStart) (.seq (.one 0 a) (.one 1 b))) []).Finds c cs
      (if a.contains c && cs.head?.any b.contains then some (none, none, 1) else none) := by
  have hsearch : (seq (.assert .textStart) (.seq (.one 0 a) (.one 1 b))).search (c :: cs) =
      if a.contains c && cs.head?.any b.contains then some ⟨⟨0, 2⟩, []⟩ else none := by
    rw [search_anchored]
    cases cs with
    | nil =>
      cases hc : a.contains c <;>
        simp [enter, Frontier.visit_new, Frontier.push, Progress.update, follow, advance, hc,
          resume]
    | cons d cs =>
      cases hc : a.contains c <;> cases hd : b.contains d <;>
        simp [enter, Frontier.visit_new, Frontier.push, Progress.update, follow, advance, hc, hd,
          resume, Frontier.finish, History.matchUpTo, follow_none]
  split
  next h => exact finds_some (hsearch.trans (if_pos h))
  next h => exact finds_none (hsearch.trans (if_neg h))

/-- The names of a rule whose first group is the one named `prefix`. -/
def leadNames : List (String × Nat) := [("prefix", 1)]

/-- **A character that another one may stand in front of.** -/
theorem finds_led (a b : CharClass) (c : Char) (cs : List Char) :
    (Rule.mk pattern (.seq (.assert .textStart)
      (.seq (.seq .empty (.alt 0 (.seq (.group 1 (.one 1 a)) .empty) .empty)) (.one 2 b)))
      leadNames).Finds c cs
      (if a.contains c && cs.head?.any b.contains then some (some (String.ofList [c]), none, 1)
      else if b.contains c then some (none, none, 0) else none) := by
  have hsearch : (seq (.assert .textStart)
      (.seq (.seq .empty (.alt 0 (.seq (.group 1 (.one 1 a)) .empty) .empty)) (.one 2 b))).search
        (c :: cs) =
      if a.contains c && cs.head?.any b.contains then some ⟨⟨0, 2⟩, [(1, ⟨0, 1⟩)]⟩
      else if b.contains c then some ⟨⟨0, 1⟩, []⟩ else none := by
    rw [search_anchored]
    cases cs with
    | nil =>
      cases hc : a.contains c <;> cases hb : b.contains c <;>
        simp [enter, Frontier.visit_new, Frontier.push, Progress.update, follow, advance, hc, hb,
          resume, Frontier.finish, History.matchUpTo]
    | cons d cs =>
      cases hc : a.contains c <;> cases hb : b.contains c <;> cases hd : b.contains d <;>
        simp [enter, Frontier.visit_new, Frontier.push, Progress.update, follow, advance, hc, hb, hd,
          resume, Frontier.finish, History.matchUpTo, History.capture, follow_none]
  split
  next h => exact finds_some (hsearch.trans (if_pos h))
  next h =>
    rw [if_neg h] at hsearch
    split
    next h => exact finds_some (hsearch.trans (if_pos h))
    next h => exact finds_none (hsearch.trans (if_neg h))

/-- **A character that another one may stand behind.** -/
theorem finds_trailed (a b : CharClass) (c : Char) (cs : List Char) :
    (Rule.mk pattern (.seq (.assert .textStart)
      (.seq (.one 0 a) (.seq .empty (.alt 1 (.seq (.group 1 (.one 2 b)) .empty) .empty))))
      leadNames).Finds c cs
      (if a.contains c then
        if cs.head?.any b.contains then some (some (String.ofList (cs.take 1)), none, 1)
        else some (none, none, 0)
      else none) := by
  have hsearch : (seq (.assert .textStart)
      (.seq (.one 0 a) (.seq .empty (.alt 1 (.seq (.group 1 (.one 2 b)) .empty) .empty)))).search
        (c :: cs) =
      if a.contains c then
        if cs.head?.any b.contains then some ⟨⟨0, 2⟩, [(1, ⟨1, 2⟩)]⟩ else some ⟨⟨0, 1⟩, []⟩
      else none := by
    rw [search_anchored]
    cases cs with
    | nil =>
      cases hc : a.contains c <;>
        simp [enter, Frontier.visit_new, Frontier.push, Progress.update, follow, advance, hc,
          resume, Frontier.finish, History.matchUpTo]
    | cons d cs =>
      cases hc : a.contains c <;> cases hd : b.contains d <;>
        simp [enter, Frontier.visit_new, Frontier.push, Progress.update, follow, advance, hc, hd,
          resume, Frontier.finish, History.matchUpTo, History.capture, follow_none]
  split
  next h =>
    rw [if_pos h] at hsearch
    split
    next h => exact finds_some (hsearch.trans (if_pos h))
    next h => exact finds_some (hsearch.trans (if_neg h))
  next h => exact finds_none (hsearch.trans (if_neg h))

/-! ## Loops -/

/-- After one more character, a greedy loop over a class can stop or read on. -/
theorem follow_many (a : CharClass) (before rest : List Char) (count : Nat) :
    let star : Regex := .star 0 true (.one 1 a)
    follow before rest count
        ⟨[⟨a, [.enter star], ⟨0, []⟩⟩], some ⟨⟨0, count⟩, []⟩⟩ =
      some ⟨⟨0, count + (rest.takeWhile a.contains).length⟩, []⟩ := by
  intro star
  induction rest generalizing before count with
  | nil => rfl
  | cons c rest ih =>
    cases hc : a.contains c with
    | true =>
      have hstep : follow before (c :: rest) count
            ⟨[⟨a, [.enter star], ⟨0, []⟩⟩], some ⟨⟨0, count⟩, []⟩⟩ =
          follow (c :: before) rest (count + 1)
            ⟨[⟨a, [.enter star], ⟨0, []⟩⟩], some ⟨⟨0, count + 1⟩, []⟩⟩ := by
        simp [star, enter, Frontier.visit_new, Frontier.push, Progress.update, follow, advance, hc,
          resume, Frontier.finish, History.matchUpTo]
      rw [hstep, ih, List.takeWhile_cons_of_pos hc, List.length_cons, Nat.add_right_comm,
        Nat.add_assoc count]
    | false =>
      have hneg : ¬ a.contains c = true := by simp [hc]
      rw [List.takeWhile_cons_of_neg hneg]
      simp [Progress.update, follow, advance, hc, follow_none]

/-- **A run of characters of a class.** -/
theorem finds_many (a : CharClass) (c : Char) (cs : List Char) :
    (Rule.mk pattern (.seq (.assert .textStart) (.seq .empty (.plus 0 true (.one 1 a)))) []).Finds
      c cs (if a.contains c then some (none, none, (cs.takeWhile a.contains).length) else none) := by
  have hsearch : (seq (.assert .textStart) (.seq .empty (.plus 0 true (.one 1 a)))).search (c :: cs) =
      if a.contains c then some ⟨⟨0, (cs.takeWhile a.contains).length + 1⟩, []⟩ else none := by
    rw [search_anchored]
    cases hc : a.contains c with
    | true =>
      have hmany := follow_many a [c] cs 1
      rw [Nat.add_comm 1] at hmany
      simpa [enter, Frontier.visit_new, Frontier.push, Progress.update, follow, advance, hc,
          resume, Frontier.finish, History.matchUpTo] using hmany
    | false =>
      simp [enter, Frontier.visit_new, Frontier.push, Progress.update, follow, advance, hc,
        follow_none]
  split
  next h => exact finds_some (hsearch.trans (if_pos h))
  next h => exact finds_none (hsearch.trans (if_neg h))

end Rule

end GlobTree
