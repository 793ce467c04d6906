import GlobTree.Proofs.Regex.Anchored
/-!
# Matches at the head of a text

A rule is meant to recognise what stands at the head of a text (`Rule.HeadOnly`). It does if its
expression is anchored (`Rule.headOnly_of_isAnchored`): every way through an anchored expression
starts at the first place, and a way keeps its start however it goes on.

For such a rule, what is recognised can be told by its number of characters (`Rule.HeadOnly.finds`).
-/

namespace GlobTree

/-! ## Ways keep their start -/

/-- All ways that were found at a place started at one place. -/
def Frontier.From (start : Nat) (frontier : Frontier) : Prop :=
  (∀ thread ∈ frontier.threads, thread.history.start = start) ∧
    ∀ history ∈ frontier.ended, history.start = start

/-- Going on with a way from a place finds only ways from there. -/
def GoesOnFrom (start : Nat) (goOn : GoOn) : Prop :=
  ∀ history frontier, history.start = start → frontier.From start → (goOn history frontier).From start

section Ways

variable {start : Nat} {frontier : Frontier} {goOn : GoOn}

theorem Frontier.From.visit (h : frontier.From start) {label : Nat} {ways : Frontier → Frontier}
    (hways : ∀ frontier : Frontier, frontier.From start → (ways frontier).From start) :
    (frontier.visit label ways).From start := by
  rw [Frontier.visit]
  split
  · exact h
  · exact hways _ h

theorem Frontier.From.push (h : frontier.From start) {thread : Thread}
    (hthread : thread.history.start = start) : (frontier.push thread).From start := by
  refine ⟨fun other hother => ?_, h.2⟩
  rcases List.mem_cons.1 hother with rfl | hother
  · exact hthread
  · exact h.1 other hother

theorem goesOnFrom_enter (place : Place) (a : Regex) (frames : List Frame)
    (h : GoesOnFrom start goOn) : GoesOnFrom start (a.enter place frames goOn) := by
  induction a generalizing frames goOn with
  | empty => exact h
  | one label members =>
    intro history frontier hhistory hfrontier
    exact hfrontier.visit fun _ hfrontier => hfrontier.push hhistory
  | assert condition =>
    intro history frontier hhistory hfrontier
    rw [Regex.enter]
    split
    · exact h history frontier hhistory hfrontier
    · exact hfrontier
  | seq a b iha ihb => exact iha _ (ihb frames h)
  | alt label a b iha ihb =>
    intro history frontier hhistory hfrontier
    exact hfrontier.visit fun frontier hfrontier =>
      ihb frames h _ _ hhistory (iha frames h _ _ hhistory hfrontier)
  | group index a ih => exact ih _ fun history frontier hhistory => h _ frontier hhistory
  | star label greedy a ih =>
    have hcopy : GoesOnFrom start (a.enter place (.enter (.star label greedy a) :: frames) fun _ => id) :=
      ih _ fun _ _ _ hfrontier => hfrontier
    intro history frontier hhistory hfrontier
    refine hfrontier.visit fun frontier hfrontier => ?_
    dsimp only
    split
    · exact h _ _ hhistory (hcopy _ _ hhistory hfrontier)
    · exact hcopy _ _ hhistory (h _ _ hhistory hfrontier)
  | plus label greedy a ih =>
    refine ih _ fun history frontier hhistory hfrontier => ?_
    exact hfrontier.visit fun frontier hfrontier => h history frontier hhistory hfrontier

theorem goesOnFrom_resume (place : Place) (frames : List Frame) :
    GoesOnFrom start (resume place frames) := by
  induction frames with
  | nil =>
    intro history frontier hhistory hfrontier
    refine ⟨hfrontier.1, fun ended hended => ?_⟩
    rcases Option.or_eq_some_iff.1 hended with hended | ⟨-, hended⟩
    · exact hfrontier.2 ended hended
    · exact Option.some.inj hended ▸ hhistory
  | cons frame frames ih =>
    cases frame with
    | enter a => exact goesOnFrom_enter place a frames ih
    | close index first => exact fun history frontier hhistory => ih _ frontier hhistory

theorem from_advance (place : Place) (c : Char) {threads : List Thread}
    (h : ∀ thread ∈ threads, thread.history.start = start) :
    (Regex.advance place c threads).From start := by
  rw [Regex.advance]
  induction threads with
  | nil => exact ⟨fun _ h => absurd h List.not_mem_nil, fun _ h => absurd h (Option.not_mem_none _)⟩
  | cons thread threads ih =>
    have hrest := ih fun other hother => h other (List.mem_cons_of_mem _ hother)
    rw [List.foldr_cons]
    split
    · exact goesOnFrom_resume place _ _ _ (h thread List.mem_cons_self) hrest
    · exact hrest

end Ways

/-! ## Anchored expressions -/

/-- All that a search is after started at one place. -/
def Progress.From (start : Nat) (progress : Progress) : Prop :=
  (∀ thread ∈ progress.threads, thread.history.start = start) ∧
    ∀ found ∈ progress.best, found.stretch.start = start

theorem Progress.From.update {start : Nat} {progress : Progress} (h : progress.From start)
    {frontier : Frontier} (hfrontier : frontier.From start) (count : Nat) :
    (progress.update frontier count).From start := by
  refine ⟨hfrontier.1, fun found hfound => ?_⟩
  rcases Option.or_eq_some_iff.1 hfound with hfound | ⟨-, hfound⟩
  · obtain ⟨history, hhistory, rfl⟩ := Option.map_eq_some_iff.1 hfound
    exact hfrontier.2 history hhistory
  · exact h.2 found hfound

namespace Regex

theorem start_of_follow {start : Nat} {before rest : List Char} {count : Nat} {progress : Progress}
    (h : progress.From start) {found : Match}
    (hfound : follow before rest count progress = some found) : found.stretch.start = start := by
  induction rest generalizing before count progress with
  | nil => exact h.2 found hfound
  | cons c rest ih => exact ih (h.update (from_advance _ c h.1) _) hfound

/-- **An anchored expression matches at the start of the text only.** -/
theorem start_eq_zero_of_isAnchored {a : Regex} (anchored : a.isAnchored) {text : List Char}
    {found : Match} (hfound : a.search text = some found) : found.stretch.start = 0 := by
  have hnone : Progress.From 0 ⟨[], none⟩ :=
    ⟨fun _ h => absurd h List.not_mem_nil, fun _ h => absurd h (Option.not_mem_none _)⟩
  have hempty : Frontier.From 0 {} :=
    ⟨fun _ h => absurd h List.not_mem_nil, fun _ h => absurd h (Option.not_mem_none _)⟩
  rw [search, anchored, searchWith, Bool.not_true, run_eq_follow] at hfound
  refine start_of_follow (hnone.update ?_ 0) hfound
  exact goesOnFrom_enter _ a [] (goesOnFrom_resume _ []) _ _ rfl hempty

end Regex

/-! ## Rules -/

namespace Rule

/-- All that the rule recognises in a text stands at its head. -/
def HeadOnly (rule : Rule) : Prop :=
  ∀ ⦃text : List Char⦄ ⦃found : RuleMatch⦄,
    rule.matchHead text = some found → found.text.toList <+: text

/-- What a rule recognises is part of the text, and it is not empty. -/
theorem exists_of_matchHead {rule : Rule} {text : List Char} {found : RuleMatch}
    (h : rule.matchHead text = some found) :
    ∃ hit, rule.regex.search text = some hit ∧ found.text.toList = hit.stretch.of text ∧
      found.text.toList ≠ [] := by
  obtain ⟨hit, hhit, h⟩ := Option.bind_eq_some_iff.1 h
  refine ⟨hit, hhit, ?_⟩
  dsimp only at h
  split at h
  · cases h
  next hne =>
    obtain rfl := Option.some.inj h
    rw [String.toList_ofList]
    exact ⟨rfl, fun hnil => hne (List.isEmpty_iff.2 hnil)⟩

/-- **A rule with an anchored expression matches at the head only.** -/
theorem headOnly_of_isAnchored {rule : Rule} (anchored : rule.regex.isAnchored) :
    rule.HeadOnly := by
  intro text found h
  obtain ⟨hit, hhit, htext, -⟩ := exists_of_matchHead h
  rw [htext, Stretch.of, Regex.start_eq_zero_of_isAnchored anchored hhit]
  exact List.take_prefix _ _

/-- What a rule finds, if it matches at the head only. -/
theorem HeadOnly.finds {rule : Rule} (headOnly : rule.HeadOnly) (c : Char) (cs : List Char) :
    rule.Finds c cs ((rule.matchHead (c :: cs)).map fun found =>
      (found.lead, found.trail, found.text.toList.length - 1)) := by
  cases h : rule.matchHead (c :: cs) with
  | none => exact h
  | some found =>
    obtain ⟨text, lead, trail, groups⟩ := found
    obtain ⟨-, -, -, hne⟩ := exists_of_matchHead h
    obtain ⟨d, ds, hd⟩ := List.exists_cons_of_ne_nil hne
    dsimp only at hd
    obtain ⟨rest, hrest⟩ := headOnly h
    rw [hd, List.cons_append] at hrest
    obtain ⟨rfl, rfl⟩ := List.cons.inj hrest
    refine ⟨groups, ?_⟩
    have htext : String.ofList (d :: (ds ++ rest).take (text.toList.length - 1)) = text := by
      rw [hd, List.length_cons, Nat.add_sub_cancel, List.take_left, ← hd, String.ofList_toList]
    dsimp only
    rw [h, htext]

end Rule

end GlobTree
