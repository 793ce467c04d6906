import GlobTree.Proofs.Regex.Anchored
import GlobTree.Proofs.Regex.Labels
import GlobTree.Proofs.Regex.Meaning
/-!
# Going through an expression at one place

A search tries the ways through an expression in order of preference, and visits no label twice at a
place.

* What a frontier `Finds` at a place is an end or a thread that leads on. Nothing is found that the
  expression does not lead to (`sound_enter`).
* When all ways have been tried, the visited labels are closed: everything that can be entered from
  one of them without reading has been entered (`Explored`). While ways are being tried, there are
  labels of which this is not yet known, so that it is shown for weaker demands on single labels
  (`entersAll`).
-/

namespace GlobTree

/-- What is left to do, but for groups to be closed. -/
def todo : List Frame → List Regex
  | [] => []
  | .enter a :: frames => a :: todo frames
  | .close .. :: frames => todo frames

/-- Expressions lead somewhere, one after the other. -/
def LeadOn : List Regex → Place → Prop
  | [], _ => True
  | a :: others, place => ∃ next, a.Leads place next ∧ LeadOn others next

/-- A thread leads somewhere, which takes a character first. -/
def Thread.LeadsOn (thread : Thread) (place : Place) : Prop :=
  ∃ c next, thread.members.contains c ∧ place.Reads [c] next ∧ LeadOn (todo thread.frames) next

/-- What has been found at a place: a way to the end, or a thread that leads there. -/
def Frontier.Finds (frontier : Frontier) (place : Place) : Prop :=
  frontier.ended.isSome ∨ ∃ thread ∈ frontier.threads, thread.LeadsOn place

/-! ## Nothing else is found -/

section Sound

variable {place : Place} {others : List Regex} {frames : List Frame} {goOn : GoOn}

/-- Going on finds nothing that some expressions do not lead to. -/
def Sound (place : Place) (goOn : GoOn) (others : List Regex) : Prop :=
  ∀ history frontier, (goOn history frontier).Finds place →
    frontier.Finds place ∨ LeadOn others place

theorem Frontier.finds_visit {frontier : Frontier} {label : Nat} {ways : Frontier → Frontier}
    {P : Prop} (h : (frontier.visit label ways).Finds place)
    (hways : ∀ frontier : Frontier, (ways frontier).Finds place → frontier.Finds place ∨ P) :
    frontier.Finds place ∨ P := by
  rw [visit] at h
  split at h
  · exact .inl h
  · exact hways { frontier with visited := frontier.visited.insert label } h

/-- **Entering an expression finds nothing that it does not lead to.** -/
theorem sound_enter (a : Regex) (h : Sound place goOn (todo frames)) :
    Sound place (a.enter place frames goOn) (a :: todo frames) := by
  induction a generalizing frames goOn with
  | empty => exact fun history frontier hfinds => (h history frontier hfinds).imp_right (⟨place, rfl, ·⟩)
  | one label members =>
    intro history frontier hfinds
    refine Frontier.finds_visit hfinds fun frontier hfinds => ?_
    rcases hfinds with hended | ⟨thread, hthread, hleads⟩
    · exact .inl (.inl hended)
    · rcases List.mem_cons.1 hthread with rfl | hthread
      · obtain ⟨c, next, hc, hreads, hothers⟩ := hleads
        exact .inr ⟨next, ⟨c, hc, hreads⟩, hothers⟩
      · exact .inl (.inr ⟨thread, hthread, hleads⟩)
  | assert condition =>
    intro history frontier hfinds
    rw [Regex.enter] at hfinds
    split at hfinds
    next holds => exact (h history frontier hfinds).imp_right (⟨place, ⟨holds, rfl⟩, ·⟩)
    next => exact .inl hfinds
  | seq a b iha ihb =>
    have hb : Sound place (b.enter place frames goOn) (todo (.enter b :: frames)) := ihb h
    intro history frontier hfinds
    refine (iha hb history frontier hfinds).imp_right ?_
    rintro ⟨middle, ha, next, hb, hothers⟩
    exact ⟨next, ⟨middle, ha, hb⟩, hothers⟩
  | alt label a b iha ihb =>
    intro history frontier hfinds
    refine Frontier.finds_visit hfinds fun frontier hfinds => ?_
    rcases ihb h _ _ hfinds with hfinds | ⟨next, hleads, hothers⟩
    · refine (iha h _ _ hfinds).imp_right ?_
      rintro ⟨next, hleads, hothers⟩
      exact ⟨next, .inl hleads, hothers⟩
    · exact .inr ⟨next, .inr hleads, hothers⟩
  | group index a ih =>
    have hclose : Sound place (goOn ∘ (·.capture index ⟨place.count, place.count⟩))
        (todo (.close index place.count :: frames)) :=
      fun history frontier => h _ frontier
    exact ih hclose
  | star label greedy a ih =>
    have hstop : LeadOn (todo frames) place → LeadOn (.star label greedy a :: todo frames) place :=
      fun hothers => ⟨place, .refl, hothers⟩
    have hcopy : Sound place (a.enter place (.enter (.star label greedy a) :: frames) fun _ => id)
        (a :: todo (.enter (.star label greedy a) :: frames)) :=
      ih fun _ _ hfinds => .inl hfinds
    have hloop : LeadOn (a :: .star label greedy a :: todo frames) place →
        LeadOn (.star label greedy a :: todo frames) place := by
      rintro ⟨middle, hfirst, next, hloop, hothers⟩
      exact ⟨next, .head hfirst hloop, hothers⟩
    intro history frontier hfinds
    refine Frontier.finds_visit hfinds fun frontier hfinds => ?_
    dsimp only at hfinds
    split at hfinds
    · rcases h _ _ hfinds with hfinds | hothers
      · exact (hcopy _ _ hfinds).imp_right hloop
      · exact .inr (hstop hothers)
    · rcases hcopy _ _ hfinds with hfinds | hothers
      · exact (h _ _ hfinds).imp_right hstop
      · exact .inr (hloop hothers)
  | plus label greedy a ih =>
    have hagain : Sound place (fun history frontier => frontier.visit label (goOn history))
        (todo (.enter (.star label greedy a) :: frames)) := by
      intro history frontier hfinds
      refine Frontier.finds_visit hfinds fun frontier hfinds => ?_
      exact (h history frontier hfinds).imp_right (⟨place, .refl, ·⟩)
    intro history frontier hfinds
    refine (ih hagain history frontier hfinds).imp_right ?_
    rintro ⟨middle, hfirst, next, hloop, hothers⟩
    exact ⟨next, ⟨middle, hfirst, hloop⟩, hothers⟩

theorem sound_resume (place : Place) (frames : List Frame) :
    Sound place (resume place frames) (todo frames) := by
  induction frames with
  | nil => exact fun _ _ _ => .inr trivial
  | cons frame frames ih =>
    cases frame with
    | enter a => exact sound_enter a ih
    | close index start => exact fun history frontier => ih _ frontier

end Sound

/-! ## What has been entered -/

/-- A frontier has everything that another one has. -/
structure Frontier.Grows (frontier next : Frontier) : Prop where
  ended : frontier.ended.isSome → next.ended.isSome
  threads : frontier.threads ⊆ next.threads
  visited : ∀ label, frontier.visited.contains label → next.visited.contains label

namespace Frontier.Grows

variable {frontier middle next : Frontier}

theorem refl (frontier : Frontier) : frontier.Grows frontier :=
  ⟨id, List.Subset.refl _, fun _ => id⟩

theorem trans (h : frontier.Grows middle) (h' : middle.Grows next) : frontier.Grows next :=
  ⟨h'.ended ∘ h.ended, List.Subset.trans h.threads h'.threads, fun label => h'.visited label ∘ h.visited label⟩

theorem isClosed (h : frontier.Grows next) {label : Nat} (closed : frontier.isClosed label) :
    next.isClosed label := by
  rw [Frontier.isClosed, Bool.or_eq_true] at closed ⊢
  exact closed.imp h.ended (h.visited label)

end Frontier.Grows

/-- An expression has been entered at a place, and what comes after it wherever it can match without
reading. -/
def Regex.Entered (place : Place) (frontier : Frontier) : Regex → Prop → Prop
  | empty, others => others
  | one label _, _ | alt label _ _, _ | star label _ _, _ => frontier.isClosed label
  | assert condition, others => condition.holds place → others
  | seq a b, others => a.Entered place frontier (b.Entered place frontier others)
  | group _ a, others => a.Entered place frontier others
  | plus label _ a, _ => a.Entered place frontier (frontier.isClosed label)

/-- Some expressions have been entered, one after the other. -/
def EnteredOn (place : Place) (frontier : Frontier) : List Regex → Prop
  | [] => frontier.ended.isSome
  | a :: others => a.Entered place frontier (EnteredOn place frontier others)

/-- Everything has been entered that can be entered without reading from a label, by what is left
from it on. -/
def Explored (place : Place) (frontier : Frontier) : List Regex → Prop
  | .one _ members :: others =>
    ∃ thread ∈ frontier.threads, thread.members = members ∧ todo thread.frames = others
  | .alt _ a b :: others =>
    EnteredOn place frontier (a :: others) ∧ EnteredOn place frontier (b :: others)
  | .star label greedy a :: others =>
    EnteredOn place frontier (a :: .star label greedy a :: others) ∧ EnteredOn place frontier others
  | _ => True

section Grows

variable {place : Place} {frontier next : Frontier}

theorem Regex.Entered.grow {a : Regex} {P Q : Prop} (h : a.Entered place frontier P)
    (grows : frontier.Grows next) (himp : P → Q) : a.Entered place next Q := by
  induction a generalizing P Q with
  | empty => exact himp h
  | one | alt | star => exact grows.isClosed h
  | assert condition => exact fun holds => himp (h holds)
  | seq a b iha ihb => exact iha h fun hb => ihb hb himp
  | group index a ih => exact ih h himp
  | plus label greedy a ih => exact ih h grows.isClosed

theorem EnteredOn.grow {others : List Regex} (h : EnteredOn place frontier others)
    (grows : frontier.Grows next) : EnteredOn place next others := by
  induction others with
  | nil => exact grows.ended h
  | cons a others ih => exact Regex.Entered.grow h grows ih

theorem Explored.grow {others : List Regex} (h : Explored place frontier others)
    (grows : frontier.Grows next) : Explored place next others := by
  unfold Explored at h ⊢
  split
  next =>
    obtain ⟨thread, hthread, heq⟩ := h
    exact ⟨thread, grows.threads hthread, heq⟩
  next => exact ⟨EnteredOn.grow h.1 grows, EnteredOn.grow h.2 grows⟩
  next => exact ⟨EnteredOn.grow h.1 grows, EnteredOn.grow h.2 grows⟩
  next => trivial

end Grows

/-! ## Everything is entered -/

section Explores

variable {place : Place} {tails : Nat → List Regex}

/-- Some expressions are where the labels say. -/
def SitOn (tails : Nat → List Regex) : List Regex → Prop
  | [] => True
  | a :: others => a.Sits tails others ∧ SitOn tails others

/-- Demands on frontiers, one for every label. They are still met when a frontier grows, and they are
met when the label has been explored. -/
structure Demands (place : Place) (tails : Nat → List Regex) (need : Nat → Frontier → Prop) :
    Prop where
  grow : ∀ {label frontier next}, need label frontier → frontier.Grows next → need label next
  explored : ∀ {label frontier}, Explored place frontier (tails label) → need label frontier

/-- The demands are met for all visited labels, and threads are where the labels say. -/
structure Frontier.Meets (frontier : Frontier) (tails : Nat → List Regex)
    (need : Nat → Frontier → Prop) : Prop where
  visited : ∀ label, frontier.visited.contains label → need label frontier
  threads : ∀ thread ∈ frontier.threads, SitOn tails (todo thread.frames)

/-- Going on from a frontier, or from what it has become, some expressions are entered, and no demand
is broken. This is so for the given demands and for weaker ones. -/
def Explores (place : Place) (tails : Nat → List Regex) (need : Nat → Frontier → Prop)
    (first : Frontier) (goOn : GoOn) (others : List Regex) : Prop :=
  ∀ weaker : Nat → Frontier → Prop, Demands place tails weaker →
    (∀ label frontier, need label frontier → weaker label frontier) →
      ∀ history (frontier : Frontier), first.Grows frontier → frontier.Meets tails weaker →
        frontier.Grows (goOn history frontier) ∧ (goOn history frontier).Meets tails weaker ∧
          EnteredOn place (goOn history frontier) others

variable {need : Nat → Frontier → Prop} {first : Frontier} {goOn : GoOn} {others : List Regex}

theorem Explores.later (h : Explores place tails need first goOn others) {next : Frontier}
    (grows : first.Grows next) : Explores place tails need next goOn others :=
  fun _ demands hweaker history _ hgrows => h _ demands hweaker history _ (grows.trans hgrows)

theorem Explores.weaken (h : Explores place tails need first goOn others)
    {need' : Nat → Frontier → Prop}
    (hneed : ∀ label frontier, need label frontier → need' label frontier) :
    Explores place tails need' first goOn others :=
  fun _ demands hweaker history _ =>
    h _ demands (fun label frontier h => hweaker label frontier (hneed label frontier h)) history _

/-- No demand is made on a label. -/
def except (need : Nat → Frontier → Prop) (label : Nat) : Nat → Frontier → Prop :=
  fun l frontier => l = label ∨ need l frontier

theorem Demands.except (demands : Demands place tails need) (label : Nat) :
    Demands place tails (except need label) :=
  ⟨fun h grows => h.imp_right (demands.grow · grows), fun h => .inr (demands.explored h)⟩

/-- **Visiting a label.** While the ways from it on are tried, no demand is made on it. -/
theorem Frontier.Meets.visit {frontier : Frontier} {label : Nat} {ways : Frontier → Frontier}
    (demands : Demands place tails need) (meets : frontier.Meets tails need)
    (hways : ∀ {next : Frontier}, frontier.Grows next → next.visited.contains label →
      next.Meets tails (GlobTree.except need label) →
        next.Grows (ways next) ∧ (ways next).Meets tails (GlobTree.except need label) ∧
          need label (ways next)) :
    frontier.Grows (frontier.visit label ways) ∧ (frontier.visit label ways).Meets tails need ∧
      (frontier.visit label ways).isClosed label := by
  rw [Frontier.visit]
  split
  next closed => exact ⟨.refl _, meets, closed⟩
  next =>
    let entered : Frontier := { frontier with visited := frontier.visited.insert label }
    have hlabel : entered.visited.contains label := by simp [entered]
    have hentered : frontier.Grows entered :=
      ⟨id, List.Subset.refl _, fun l hl => by simp [entered, hl]⟩
    have hmeets : entered.Meets tails (GlobTree.except need label) := by
      refine ⟨fun l hl => ?_, meets.threads⟩
      have hor : label = l ∨ frontier.visited.contains l := by
        simpa [entered, Std.TreeSet.contains_insert] using hl
      rcases hor with rfl | hl
      · exact .inl rfl
      · exact .inr (demands.grow (meets.visited l hl) hentered)
    obtain ⟨grows, hmeets, hneed⟩ := hways hentered hlabel hmeets
    refine ⟨hentered.trans grows, ⟨fun l hl => ?_, hmeets.threads⟩, ?_⟩
    · rcases hmeets.visited l hl with rfl | h
      · exact hneed
      · exact h
    · rw [isClosed, Bool.or_eq_true]
      exact .inr (grows.visited label hlabel)

/-- While the ways from a label on are tried, no demand is made on it. -/
theorem Explores.except (h : Explores place tails need first goOn others)
    {weaker : Nat → Frontier → Prop}
    (hweaker : ∀ label frontier, need label frontier → weaker label frontier) (label : Nat)
    {next : Frontier} (grows : first.Grows next) :
    Explores place tails (GlobTree.except weaker label) next goOn others :=
  (h.later grows).weaken fun _ _ hneed => .inr (hweaker _ _ hneed)

/-- **Two ways are tried**, one after the other. -/
theorem Explores.both {one two : GoOn} {others' : List Regex}
    (hone : Explores place tails need first one others)
    (htwo : Explores place tails need first two others') (demands : Demands place tails need)
    (meets : first.Meets tails need) (history : History) :
    first.Grows (two history (one history first)) ∧
      (two history (one history first)).Meets tails need ∧
        EnteredOn place (two history (one history first)) others ∧
          EnteredOn place (two history (one history first)) others' := by
  obtain ⟨hgrows, hmeets, hentered⟩ :=
    hone need demands (fun _ _ h => h) history first (.refl _) meets
  obtain ⟨hgrows', hmeets', hentered'⟩ :=
    htwo need demands (fun _ _ h => h) history _ hgrows hmeets
  exact ⟨hgrows.trans hgrows', hmeets', EnteredOn.grow hentered hgrows', hentered'⟩

/-- Entering an expression enters all of it, if going on enters what comes after it. -/
def EntersAll (place : Place) (tails : Nat → List Regex) (a : Regex) : Prop :=
  ∀ {need : Nat → Frontier → Prop} {first : Frontier} {frames : List Frame} {goOn : GoOn},
    SitOn tails (a :: todo frames) → Explores place tails need first goOn (todo frames) →
      Explores place tails need first (a.enter place frames goOn) (a :: todo frames)

theorem entersAll_one (label : Nat) (members : CharClass) :
    EntersAll place tails (.one label members) := by
  intro need first frames goOn sits hgo weaker demands _ history frontier _ meets
  refine meets.visit demands fun {frontier} _ _ meets => ?_
  have hgrows : frontier.Grows (frontier.push ⟨members, frames, history⟩) :=
    ⟨id, List.subset_cons_self _ _, fun _ => id⟩
  have hexplored : Explored place (frontier.push ⟨members, frames, history⟩) (tails label) := by
    rw [sits.1]
    exact ⟨_, List.mem_cons_self, rfl, rfl⟩
  refine ⟨hgrows, ⟨fun l hl => (demands.except label).grow (meets.visited l hl) hgrows, ?_⟩,
    demands.explored hexplored⟩
  intro thread hthread
  rcases List.mem_cons.1 hthread with rfl | hthread
  · exact sits.2
  · exact meets.threads thread hthread

theorem entersAll_star (label : Nat) (greedy : Bool) {a : Regex} (h : EntersAll place tails a) :
    EntersAll place tails (.star label greedy a) := by
  intro need first frames goOn sits hgo weaker demands hweaker history frontier hfirst meets
  refine meets.visit demands fun {frontier} hgrows hlabel meets => ?_
  -- After a copy that reads nothing the loop itself would come, which is being visited already.
  have hagain : Explores place tails (GlobTree.except weaker label) frontier (fun _ => id)
      (todo (.enter (.star label greedy a) :: frames)) := by
    intro _ _ _ _ frontier hgrows meets
    have hclosed : frontier.isClosed label := by
      rw [Frontier.isClosed, Bool.or_eq_true]
      exact .inr (hgrows.visited label hlabel)
    exact ⟨.refl _, meets, hclosed⟩
  have hsits : SitOn tails (a :: todo (.enter (.star label greedy a) :: frames)) :=
    ⟨sits.1.2, sits⟩
  have hcopy := h hsits hagain
  have hstop := hgo.except hweaker label (hfirst.trans hgrows)
  dsimp only
  split
  · obtain ⟨hgrows, hmeets, hcopies, hothers⟩ :=
      hcopy.both hstop (demands.except label) meets history
    refine ⟨hgrows, hmeets, demands.explored ?_⟩
    rw [sits.1.1]
    exact ⟨hcopies, hothers⟩
  · obtain ⟨hgrows, hmeets, hothers, hcopies⟩ :=
      hstop.both hcopy (demands.except label) meets history
    refine ⟨hgrows, hmeets, demands.explored ?_⟩
    rw [sits.1.1]
    exact ⟨hcopies, hothers⟩

theorem entersAll_plus (label : Nat) (greedy : Bool) {a : Regex} (h : EntersAll place tails a) :
    EntersAll place tails (.plus label greedy a) := by
  intro need first frames goOn sits hgo weaker demands hweaker history frontier hfirst meets
  -- As long as the first copy is not done, only what comes after the loop is demanded of its label.
  let stops : Nat → Frontier → Prop := fun l frontier =>
    weaker l frontier ∨ l = label ∧ EnteredOn place frontier (todo frames)
  have hstops : Demands place tails stops :=
    ⟨fun h grows => h.imp (demands.grow · grows) fun h => ⟨h.1, EnteredOn.grow h.2 grows⟩,
      fun h => .inl (demands.explored h)⟩
  have hmeets : frontier.Meets tails stops :=
    ⟨fun l hl => .inl (meets.visited l hl), meets.threads⟩
  have hagain : Explores place tails stops frontier
      (fun history frontier => frontier.visit label (goOn history))
      (todo (.enter (.star label greedy a) :: frames)) := by
    intro weaker' demands' hweaker' history frontier' hgrows' meets'
    refine meets'.visit demands' fun {frontier''} hgrows'' _ meets'' => ?_
    have hless (l : Nat) (frontier : Frontier) (hneed : need l frontier) : weaker' l frontier :=
      hweaker' l _ (.inl (hweaker l _ hneed))
    obtain ⟨hgrows, hmeets, hentered⟩ :=
      hgo.except hless label ((hfirst.trans hgrows').trans hgrows'') _ (demands'.except label)
        (fun _ _ h => h) history frontier'' (.refl _) meets''
    exact ⟨hgrows, hmeets, hweaker' label _ (.inr ⟨rfl, hentered⟩)⟩
  have hsits : SitOn tails (a :: todo (.enter (.star label greedy a) :: frames)) :=
    ⟨sits.1.2, sits⟩
  obtain ⟨hgrows, hmeets, hentered⟩ :=
    h hsits hagain stops hstops (fun _ _ h => h) history frontier (.refl _) hmeets
  refine ⟨hgrows, ⟨fun l hl => ?_, hmeets.threads⟩, hentered⟩
  rcases hmeets.visited l hl with h | ⟨rfl, hothers⟩
  · exact h
  · refine demands.explored ?_
    rw [sits.1.1]
    exact ⟨hentered, hothers⟩

/-- **Entering an expression enters all of it**, and what comes after it. -/
theorem entersAll (a : Regex) : EntersAll place tails a := by
  induction a with
  | empty => exact fun _ hgo => hgo
  | one label members => exact entersAll_one label members
  | assert condition =>
    intro need first frames goOn sits hgo weaker demands hweaker history frontier hfirst meets
    rw [Regex.enter]
    split
    next holds =>
      obtain ⟨hgrows, hmeets, hentered⟩ := hgo weaker demands hweaker history frontier hfirst meets
      exact ⟨hgrows, hmeets, fun _ => hentered⟩
    next fails => exact ⟨.refl _, meets, fun holds => absurd holds fails⟩
  | seq a b iha ihb =>
    intro need first frames goOn sits hgo
    have hb : Explores place tails need first (b.enter place frames goOn)
        (todo (.enter b :: frames)) :=
      ihb ⟨sits.1.2, sits.2⟩ hgo
    have hsits : SitOn tails (a :: todo (.enter b :: frames)) := ⟨sits.1.1, sits.1.2, sits.2⟩
    exact iha hsits hb
  | alt label a b iha ihb =>
    intro need first frames goOn sits hgo weaker demands hweaker history frontier hfirst meets
    obtain ⟨⟨htail, hsitsa, hsitsb⟩, hsits⟩ := sits
    refine meets.visit demands fun {frontier} hgrows _ meets => ?_
    have hgo := hgo.except hweaker label (hfirst.trans hgrows)
    obtain ⟨hgrows, hmeets, ha, hb⟩ := (iha ⟨hsitsa, hsits⟩ hgo).both (ihb ⟨hsitsb, hsits⟩ hgo)
      (demands.except label) meets history
    refine ⟨hgrows, hmeets, demands.explored ?_⟩
    rw [htail]
    exact ⟨ha, hb⟩
  | group index a ih =>
    intro need first frames goOn sits hgo
    have hclose : Explores place tails need first
        (goOn ∘ (·.capture index ⟨place.count, place.count⟩))
        (todo (.close index place.count :: frames)) :=
      fun weaker demands hweaker history => hgo weaker demands hweaker _
    have hsits : SitOn tails (a :: todo (.close index place.count :: frames)) := sits
    exact ih hsits hclose
  | star label greedy a ih => exact entersAll_star label greedy ih
  | plus label greedy a ih => exact entersAll_plus label greedy ih

variable {frames : List Frame}

theorem explores_resume (sits : SitOn tails (todo frames)) :
    Explores place tails need first (resume place frames) (todo frames) := by
  induction frames with
  | nil =>
    intro weaker demands _ history frontier _ meets
    have hgrows : frontier.Grows (frontier.finish history) :=
      ⟨fun _ => by simp [Frontier.finish], List.Subset.refl _, fun _ => id⟩
    refine ⟨hgrows, ⟨fun l hl => demands.grow (meets.visited l hl) hgrows, meets.threads⟩, ?_⟩
    simp [todo, EnteredOn, resume, Frontier.finish]
  | cons frame frames ih =>
    cases frame with
    | enter a => exact entersAll a sits (ih sits.2)
    | close index start =>
      exact fun weaker demands hweaker history => ih sits weaker demands hweaker _

end Explores

end GlobTree
