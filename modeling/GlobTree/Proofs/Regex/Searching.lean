import GlobTree.Proofs.Regex.Exploring
/-!
# What a search finds

Whether a search finds something depends neither on the order in which ways are tried nor on the
labels that are passed over: an anchored search finds a match if and only if the expression leads
somewhere from the start of the text (`Pattern.isSome_search`).

Where all visited labels have been explored, everything is found that the expressions lead to which
have been entered (`finds_of_enteredOn`). The threads that read a character come to such a frontier
again (`complete_advance`), and so on to the end of the text (`isSome_follow`).
-/

namespace GlobTree

open Relation

/-! ## Everything is found -/

section Yields

variable {place : Place} {tails : Nat → List Regex} {frontier : Frontier}

/-- If an expression was entered and leads to a place from which the others lead on, something is
found, provided that it is found where the expression reads nothing. -/
def Yields (place : Place) (tails : Nat → List Regex) (frontier : Frontier) (a : Regex) : Prop :=
  ∀ {others : List Regex} {next : Place}, SitOn tails (a :: others) → a.Leads place next →
    LeadOn others next → EnteredOn place frontier (a :: others) →
      (place = next → EnteredOn place frontier others → frontier.Finds place) → frontier.Finds place

/-- All visited labels have been explored. -/
def AllExplored (place : Place) (tails : Nat → List Regex) (frontier : Frontier) : Prop :=
  ∀ label, frontier.visited.contains label → Explored place frontier (tails label)

/-- At a label that is closed either the end has been reached, or everything has been entered. -/
theorem AllExplored.of_isClosed (all : AllExplored place tails frontier) {label : Nat}
    {tail : List Regex} (htail : tails label = tail) (closed : frontier.isClosed label) :
    frontier.ended.isSome ∨ Explored place frontier tail := by
  rw [Frontier.isClosed, Bool.or_eq_true] at closed
  exact closed.imp_right fun h => htail ▸ all label h

theorem yields_star (all : AllExplored place tails frontier) {label : Nat} {greedy : Bool}
    {a : Regex} (h : Yields place tails frontier a) :
    Yields place tails frontier (.star label greedy a) := by
  intro others next sits hleads hothers hentered hgo
  rcases all.of_isClosed sits.1.1 hentered with hended | ⟨hcopy, hstop⟩
  · exact .inl hended
  · -- By induction on the number of copies. A copy that reads something is followed by a thread, a
    -- copy that reads nothing leaves one copy less.
    have hloop {start : Place} (hleads : ReflTransGen a.Leads start next) (hstart : start = place) :
        frontier.Finds place := by
      induction hleads using ReflTransGen.head_induction_on with
      | refl => exact hgo hstart.symm hstop
      | head hfirst hrest ih =>
        subst hstart
        exact h ⟨sits.1.2, sits⟩ hfirst ⟨next, hrest, hothers⟩ hcopy fun heq _ => ih heq.symm
    exact hloop hleads rfl

theorem yields (all : AllExplored place tails frontier) (a : Regex) :
    Yields place tails frontier a := by
  induction a with
  | empty => exact fun _ hleads _ hentered hgo => hgo hleads hentered
  | one label members =>
    intro others next sits hleads hothers hentered _
    rcases all.of_isClosed sits.1 hentered with hended | ⟨thread, hthread, rfl, rfl⟩
    · exact .inl hended
    · obtain ⟨c, hc, hreads⟩ := hleads
      exact .inr ⟨thread, hthread, c, next, hc, hreads, hothers⟩
  | assert condition => exact fun _ hleads _ hentered hgo => hgo hleads.2 (hentered hleads.1)
  | seq a b iha ihb =>
    rintro others next ⟨⟨hsitsa, hsitsb⟩, hsits⟩ ⟨middle, ha, hb⟩ hothers hentered hgo
    refine iha ⟨hsitsa, hsitsb, hsits⟩ ha ⟨next, hb, hothers⟩ hentered fun heq hentered => ?_
    subst heq
    exact ihb ⟨hsitsb, hsits⟩ hb hothers hentered hgo
  | alt label a b iha ihb =>
    rintro others next ⟨⟨htail, hsitsa, hsitsb⟩, hsits⟩ hleads hothers hentered hgo
    rcases all.of_isClosed htail hentered with hended | ⟨hentereda, henteredb⟩
    · exact .inl hended
    · rcases hleads with ha | hb
      · exact iha ⟨hsitsa, hsits⟩ ha hothers hentereda hgo
      · exact ihb ⟨hsitsb, hsits⟩ hb hothers henteredb hgo
  | group index a ih => exact ih
  | star label greedy a ih => exact yields_star all ih
  | plus label greedy a ih =>
    rintro others next ⟨⟨htail, hsitsa⟩, hsits⟩ ⟨middle, hfirst, hrest⟩ hothers hentered hgo
    have hloop : SitOn tails (.star label greedy a :: others) := ⟨⟨htail, hsitsa⟩, hsits⟩
    refine ih ⟨hsitsa, hloop⟩ hfirst ⟨next, hrest, hothers⟩ hentered fun heq hclosed => ?_
    subst heq
    exact yields_star all ih hloop hrest hothers hclosed hgo

/-- **Where all visited labels have been explored, everything is found** that the expressions which
have been entered lead to. -/
theorem finds_of_enteredOn (all : AllExplored place tails frontier) {others : List Regex}
    (sits : SitOn tails others) (hleads : LeadOn others place)
    (hentered : EnteredOn place frontier others) : frontier.Finds place := by
  induction others with
  | nil => exact .inl hentered
  | cons a others ih =>
    obtain ⟨next, ha, hothers⟩ := hleads
    refine yields all a sits ha hothers hentered fun heq hentered => ?_
    subst heq
    exact ih sits.2 hothers hentered

end Yields

/-! ## Searches -/

section Searches

variable {place : Place} {tails : Nat → List Regex}

/-- What a whole exploration leaves: all visited labels explored, and threads where the labels say. -/
abbrev Frontier.Complete (frontier : Frontier) (place : Place) (tails : Nat → List Regex) : Prop :=
  frontier.Meets tails fun label frontier => Explored place frontier (tails label)

theorem demands_explored :
    Demands place tails fun label frontier => Explored place frontier (tails label) :=
  ⟨Explored.grow, id⟩

theorem complete_empty : ({} : Frontier).Complete place tails :=
  ⟨fun label h => by simp at h, fun _ h => absurd h List.not_mem_nil⟩

/-- All ways from some frames on. -/
theorem Frontier.Complete.resume {frontier : Frontier} (complete : frontier.Complete place tails)
    {frames : List Frame} (sits : SitOn tails (todo frames)) (history : History) :
    frontier.Grows (resume place frames history frontier) ∧
      (GlobTree.resume place frames history frontier).Complete place tails ∧
        EnteredOn place (GlobTree.resume place frames history frontier) (todo frames) :=
  explores_resume sits _ demands_explored (fun _ _ h => h) history frontier (.refl _) complete

variable {threads : List Thread}

/-- The threads that can read a character are all gone on with. -/
theorem complete_advance (place : Place) (c : Char)
    (sits : ∀ thread ∈ threads, SitOn tails (todo thread.frames)) :
    (Regex.advance place c threads).Complete place tails ∧ ∀ thread ∈ threads,
      thread.members.contains c →
        EnteredOn place (Regex.advance place c threads) (todo thread.frames) := by
  induction threads with
  | nil => exact ⟨complete_empty, fun _ h => absurd h List.not_mem_nil⟩
  | cons first threads ih =>
    obtain ⟨hcomplete, hentered⟩ := ih fun thread h => sits thread (List.mem_cons_of_mem _ h)
    have hadvance : Regex.advance place c (first :: threads) =
      if first.members.contains c then
        resume place first.frames first.history (Regex.advance place c threads)
      else Regex.advance place c threads := rfl
    rw [hadvance]
    split
    next hc =>
      obtain ⟨hgrows, hcomplete, hfirst⟩ :=
        hcomplete.resume (sits first List.mem_cons_self) first.history
      refine ⟨hcomplete, fun thread hthread hcontains => ?_⟩
      rcases List.mem_cons.1 hthread with rfl | hthread
      · exact hfirst
      · exact (hentered thread hthread hcontains).grow hgrows
    next hc =>
      refine ⟨hcomplete, fun thread hthread hcontains => ?_⟩
      rcases List.mem_cons.1 hthread with rfl | hthread
      · exact absurd hcontains hc
      · exact hentered thread hthread hcontains

/-- Going on with threads finds no more than they lead to. -/
theorem lead_of_finds_advance (c : Char) (h : (Regex.advance place c threads).Finds place) :
    ∃ thread ∈ threads, thread.members.contains c ∧ LeadOn (todo thread.frames) place := by
  induction threads with
  | nil => simp [Regex.advance, Frontier.Finds] at h
  | cons first threads ih =>
    have hothers (h : (Regex.advance place c threads).Finds place) :
        ∃ thread ∈ first :: threads, thread.members.contains c ∧ LeadOn (todo thread.frames) place := by
      obtain ⟨thread, hthread, hleads⟩ := ih h
      exact ⟨thread, List.mem_cons_of_mem _ hthread, hleads⟩
    have hadvance : Regex.advance place c (first :: threads) =
      if first.members.contains c then
        resume place first.frames first.history (Regex.advance place c threads)
      else Regex.advance place c threads := rfl
    rw [hadvance] at h
    split at h
    next hc =>
      rcases sound_resume place first.frames _ _ h with h | hleads
      · exact hothers h
      · exact ⟨first, List.mem_cons_self, hc, hleads⟩
    next => exact hothers h

/-- Going over to what was found keeps what there is. -/
theorem Progress.finds_update (progress : Progress) (frontier : Frontier) (place : Place)
    (count : Nat) :
    ((progress.update frontier count).best.isSome ∨
      ∃ thread ∈ (progress.update frontier count).threads, thread.LeadsOn place) ↔
        progress.best.isSome ∨ frontier.Finds place := by
  simp only [update, Frontier.Finds, Option.isSome_or, Option.isSome_map, Bool.or_eq_true]
  tauto

/-- **Following threads to the end of the text** finds a match if there is one already or one of the
threads leads to one. -/
theorem isSome_follow (before rest : List Char) (count : Nat) (progress : Progress)
    (sits : ∀ thread ∈ progress.threads, SitOn tails (todo thread.frames)) :
    (Regex.follow before rest count progress).isSome ↔
      progress.best.isSome ∨ ∃ thread ∈ progress.threads, thread.LeadsOn ⟨before, rest, count⟩ := by
  induction rest generalizing before count progress with
  | nil =>
    refine ⟨.inl, fun h => h.resolve_right ?_⟩
    rintro ⟨thread, -, c, next, -, ⟨hrest, -, -⟩, -⟩
    simp at hrest
  | cons c rest ih =>
    let place : Place := ⟨c :: before, rest, count + 1⟩
    obtain ⟨hcomplete, hentered⟩ := complete_advance place c sits
    have hfinds : (Regex.advance place c progress.threads).Finds place ↔
        ∃ thread ∈ progress.threads, thread.LeadsOn ⟨before, c :: rest, count⟩ := by
      constructor
      · intro h
        obtain ⟨thread, hthread, hc, hleads⟩ := lead_of_finds_advance c h
        exact ⟨thread, hthread, c, place, hc, ⟨rfl, rfl, rfl⟩, hleads⟩
      · rintro ⟨thread, hthread, d, next, hd, ⟨hrest, hbefore, hcount⟩, hleads⟩
        obtain ⟨rfl, hrest⟩ := List.cons.inj hrest
        obtain rfl : next = place := by
          obtain ⟨before', rest', count'⟩ := next
          simp_all [place]
        exact finds_of_enteredOn hcomplete.visited (sits thread hthread) hleads
          (hentered thread hthread hd)
    rw [← hfinds, Regex.follow, ih _ _ _ hcomplete.threads]
    exact Progress.finds_update progress (Regex.advance place c progress.threads) place (count + 1)

/-- **An anchored search finds a match if and only if the expression leads somewhere** from the start
of the text. -/
theorem Regex.isSome_search {a : Regex} (sits : a.Sits tails []) (text : List Char) :
    ((seq (.assert .textStart) a).search text).isSome ↔ ∃ next, a.Leads ⟨[], text, 0⟩ next := by
  let place : Place := ⟨[], text, 0⟩
  have hsits : SitOn tails (todo [.enter a]) := ⟨sits, trivial⟩
  have hempty : ({} : Frontier).Complete place tails := complete_empty
  obtain ⟨-, hcomplete, hentered⟩ := hempty.resume hsits ⟨0, []⟩
  have hfinds : (GlobTree.resume place [.enter a] ⟨0, []⟩ {}).Finds place ↔
      ∃ next, a.Leads place next := by
    constructor
    · intro h
      rcases sound_resume place _ _ _ h with h | ⟨next, hleads, -⟩
      · simp [Frontier.Finds] at h
      · exact ⟨next, hleads⟩
    · rintro ⟨next, hleads⟩
      exact finds_of_enteredOn hcomplete.visited hsits ⟨next, hleads, trivial⟩ hentered
  rw [search_anchored, isSome_follow _ _ _ _ hcomplete.threads, ← hfinds]
  exact (Progress.finds_update ⟨[], none⟩ _ place 0).trans (or_iff_right Bool.false_ne_true)

end Searches

/-- **Searching with an anchored expression** that was written and compiled finds a match if and only
if the expression leads somewhere from the start of the text. -/
theorem Pattern.isSome_search (p : Pattern) (text : List Char) :
    ((seq (.assert .textStart) p).compile.search text).isSome ↔
      ∃ next, p.Leads ⟨[], text, 0⟩ next := by
  obtain ⟨tails, htails⟩ := p.exists_sits
  have hleads : p.compile.Leads = p.Leads := p.leads_compileFrom 0
  rw [← hleads]
  exact Regex.isSome_search htails text

end GlobTree
