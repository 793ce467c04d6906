import GlobTree.Regex.Frontier
/-!
# Matching

A text is read once, from left to right, while all ways to match an expression are followed at the
same time. `Regex.search` finds the first match: of all matches that start as early as possible the
preferred one. A way that gets to the end of the expression is a match, and ways to which it is
preferred are given up. Ways that are preferred to it go on, and may still lead to a better match.

`search_eq_searchWith` says that it is safe not to start again further on if the expression is
anchored to the start of the text.
-/

namespace GlobTree

/-- A match: where it is, and what its groups captured. -/
structure Match where
  stretch : Stretch
  captures : List (Nat × Stretch)
  deriving DecidableEq, Repr, Inhabited

/-- What a group captured. -/
def Match.group (found : Match) (index : Nat) : Option Stretch :=
  found.captures.lookup index

/-- The match of a way that has got to the end at a place. -/
def History.matchUpTo (history : History) (stop : Nat) : Match :=
  ⟨⟨history.start, stop⟩, history.captures⟩

/-- How far a search has come. -/
structure Progress where
  /-- The threads that may lead to a better match, the least preferred first. -/
  threads : List Thread
  best : Option Match
  deriving DecidableEq, Repr, Inhabited

/-- Goes over to what was found at a place. -/
def Progress.update (progress : Progress) (frontier : Frontier) (count : Nat) : Progress where
  threads := frontier.threads
  best := (frontier.ended.map (·.matchUpTo count)).or progress.best

namespace Regex

/-- Tries all ways of a match that starts at a place. -/
def start (a : Regex) (place : Place) (frontier : Frontier) : Frontier :=
  a.enter place [] (resume place []) ⟨place.count, []⟩ frontier

/-- Goes on with the threads that can read a character, the preferred ones first. -/
def advance (place : Place) (c : Char) (threads : List Thread) : Frontier :=
  threads.foldr
    (fun thread frontier =>
      if thread.members.contains c then resume place thread.frames thread.history frontier
      else frontier)
    {}

/-- Reads a character and comes to a place. If there is no match yet, a match may start there,
provided that matches may start everywhere. -/
def step (a : Regex) (floating : Bool) (place : Place) (c : Char) (progress : Progress) :
    Progress :=
  let frontier := advance place c progress.threads
  progress.update
    (if floating && progress.best.isNone then a.start place frontier else frontier) place.count

/-- Goes on with a search until nothing better can be found. -/
def run (a : Regex) (floating : Bool) :
    (before rest : List Char) → (count : Nat) → Progress → Option Match
  | _, [], _, progress => progress.best
  | before, c :: rest, count, progress =>
    if progress.threads.isEmpty && (progress.best.isSome || !floating) then progress.best
    else
      let place : Place := ⟨c :: before, rest, count + 1⟩
      a.run floating (c :: before) rest (count + 1) (a.step floating place c progress)

/-- The first match in a text. Only if `floating`, a match may start after the start of the
text. -/
def searchWith (a : Regex) (floating : Bool) (text : List Char) : Option Match :=
  let progress : Progress := ⟨[], none⟩
  a.run floating [] text 0 (progress.update (a.start ⟨[], text, 0⟩ {}) 0)

/-- Whether every match is at the start of the text, because an assertion says so first. -/
def isAnchored : Regex → Bool
  | empty | one .. | star .. => false
  | assert condition => condition == .textStart
  | seq a _ => a.isAnchored
  | alt _ a b => a.isAnchored && b.isAnchored
  | group _ a => a.isAnchored
  | plus _ _ a => a.isAnchored

/-- The first match in a text. -/
def search (a : Regex) (text : List Char) : Option Match :=
  a.searchWith (!a.isAnchored) text

/-! ## Anchored expressions -/

/-- An anchored expression leads nowhere after the start of the text. -/
theorem enter_of_isAnchored {a : Regex} (anchored : a.isAnchored) {place : Place}
    (later : place.before ≠ []) (frames : List Frame) (goOn : GoOn) (history : History)
    (frontier : Frontier) :
    (a.enter place frames goOn history frontier).threads = frontier.threads ∧
      (a.enter place frames goOn history frontier).ended = frontier.ended := by
  induction a generalizing frames goOn history frontier with
  | empty => simp [isAnchored] at anchored
  | one => simp [isAnchored] at anchored
  | star => simp [isAnchored] at anchored
  | assert condition =>
    obtain rfl : condition = .textStart := by simpa [isAnchored] using anchored
    simp [enter, Assertion.holds, later]
  | seq a b iha => exact iha anchored _ _ _ _
  | alt label a b iha ihb =>
    simp only [isAnchored, Bool.and_eq_true] at anchored
    rw [enter, Frontier.visit]
    split
    · exact ⟨rfl, rfl⟩
    · simp [ihb anchored.2, iha anchored.1]
  | group index a ih => exact ih anchored _ _ _ _
  | plus label greedy a ih => exact ih anchored _ _ _ _

/-- Whether an anchored expression may start further on makes no difference to a step. -/
theorem step_of_isAnchored {a : Regex} (anchored : a.isAnchored) (floating : Bool)
    {place : Place} (later : place.before ≠ []) (c : Char) (progress : Progress) :
    a.step floating place c progress = a.step false place c progress := by
  have same := enter_of_isAnchored anchored later [] (resume place []) ⟨place.count, []⟩
  simp only [step, start, Progress.update, Bool.false_and]
  split <;> simp [same]

/-- Without a thread there is nothing to be found. -/
theorem run_of_isAnchored {a : Regex} (anchored : a.isAnchored) (before rest : List Char)
    (count : Nat) : a.run true before rest count ⟨[], none⟩ = none := by
  induction rest generalizing before count with
  | nil => rfl
  | cons c rest ih =>
    have stays : a.step true ⟨c :: before, rest, count + 1⟩ c ⟨[], none⟩ = ⟨[], none⟩ := by
      rw [step_of_isAnchored anchored true (by simp)]
      rfl
    simpa [run, stays] using ih _ _

/-- Not to start further on with an anchored expression changes nothing. -/
theorem search_eq_searchWith (a : Regex) (text : List Char) :
    a.search text = a.searchWith true text := by
  have same (anchored : a.isAnchored) (before rest : List Char) (count : Nat)
      (progress : Progress) :
      a.run false before rest count progress = a.run true before rest count progress := by
    induction rest generalizing before count progress with
    | nil => rfl
    | cons c rest ih =>
      have step (progress : Progress) :
          a.step true ⟨c :: before, rest, count + 1⟩ c progress =
            a.step false ⟨c :: before, rest, count + 1⟩ c progress :=
        step_of_isAnchored anchored true (by simp) c progress
      match progress with
      | ⟨[], none⟩ => exact (run_of_isAnchored anchored before (c :: rest) count).symm
      | ⟨[], some _⟩ => simp [run]
      | ⟨_ :: _, _⟩ => simp [run, step, ih]
  cases anchored : a.isAnchored with
  | true => simp [search, searchWith, anchored, same anchored]
  | false => simp [search, anchored]

end Regex

end GlobTree
