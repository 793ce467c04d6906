import GlobTree.Proofs.Regex.Anchored
import GlobTree.Proofs.Regex.Reading
/-!
# Rules for one text

The rule of a text is read from the text with its special characters escaped, inside of the group
that anchors it. What is read are the characters of the text one after the other
(`Rule.literal_eq`), and so the expression that is matched is `Regex.ofText`.

A search with it has one thread, which waits for the next character of the text
(`Thread.ofText`). It follows the text as far as the two agree, and gets to the end if and only if
the searched text starts with it (`follow_ofText`).
-/

namespace GlobTree

/-! ## What is read -/

/-- The pattern of a text: its characters one after the other. -/
def Pattern.ofText (text : List Char) : Pattern :=
  .seqs (text.map fun c => .one (.single c))

namespace Branch

theorem allItems_add (branch : Branch) (item : Pattern) :
    (branch.add item).allItems = item :: branch.allItems := rfl

end Branch

namespace Alters

/-- The characters of a text come after what was there. -/
theorem allItems_addText (text : List Char) (branch : Branch) :
    (addText text branch).allItems.reverse =
      branch.allItems.reverse ++ text.map fun c => .one (.single c) := by
  induction text generalizing branch with
  | nil => exact (List.append_nil _).symm
  | cons c cs ih =>
    have hrest := ih (branch.add (.one (.single c)))
    rw [Branch.allItems_add, List.reverse_cons, List.append_assoc] at hrest
    exact hrest

/-- They start no other alternative. -/
theorem complete_addText (text : List Char) (branch : Branch) :
    (addText text branch).complete = branch.complete := by
  induction text generalizing branch with
  | nil => rfl
  | cons c cs ih => exact ih (branch.add (.one (.single c)))

/-- The characters are not nested. -/
theorem depths_addText (text : List Char) (branch : Branch) :
    (addText text branch).depths = List.replicate text.length 0 ++ branch.depths ∧
      (addText text branch).completeDepths = branch.completeDepths := by
  induction text generalizing branch with
  | nil => exact ⟨rfl, rfl⟩
  | cons c cs ih =>
    obtain ⟨hdepths, hcomplete⟩ := ih (branch.add (.one (.single c)))
    refine ⟨hdepths.trans ?_, hcomplete⟩
    rw [List.length_cons, List.replicate_succ', List.append_assoc]
    rfl

/-- A text on its own. -/
theorem whole_addText (text : List Char) : (addText text {}).whole = Pattern.ofText text := by
  rw [Branch.whole, Branch.alternative, complete_addText, allItems_addText]
  rfl

theorem depth_addText_le (text : List Char) : (addText text {}).depth ≤ 1 := by
  obtain ⟨hdepths, hcomplete⟩ := depths_addText text {}
  rw [Branch.depth, Branch.allDepths, hcomplete, depthOfParts_singleton, hdepths, List.append_nil]
  exact depthOfParts_le fun depth hmem => Nat.le_of_eq (List.eq_of_mem_replicate hmem)

end Alters

/-- **The rule of a text is read**, as the characters of the text after the start. -/
theorem Rule.literal_eq (text : String) :
    Rule.literal text = .ok ⟨String.ofList (escapeText text.toList),
      (Pattern.seq (.assert .textStart) (Pattern.ofText text.toList)).compile, []⟩ := by
  have hinner : Alters (String.ofList (escapeText text.toList)).toList [')'] fun branch =>
      .ok (Alters.addText text.toList branch) := by
    rw [String.toList_ofList]
    exact Alters.escapeText text.toList [')']
  have hdepth : ¬ 250 < (Alters.addText text.toList {}).depth + 2 := by
    have hle := Alters.depth_addText_le text.toList
    omega
  rw [literal, read_of_alters hinner]
  dsimp only
  rw [if_neg hdepth, if_pos rfl, Alters.whole_addText]

/-! ## What is matched -/

/-- The expression that matches a text, with labels from the given one on. -/
def Regex.ofText : (label : Nat) → List Char → Regex
  | _, [] => .empty
  | label, [c] => .one label (.single c)
  | label, c :: d :: cs => .seq (.one label (.single c)) (ofText (label + 1) (d :: cs))

theorem Pattern.compileFrom_ofText (text : List Char) (label : Nat) :
    ((Pattern.ofText text).compileFrom label).1 = Regex.ofText label text := by
  induction text generalizing label with
  | nil => rfl
  | cons c cs ih =>
    cases cs with
    | nil => rfl
    | cons d cs => exact congrArg (Regex.seq (.one label (.single c))) (ih (label + 1))

theorem Regex.groupCount_ofText (label : Nat) (text : List Char) :
    (Regex.ofText label text).groupCount = 0 := by
  induction text generalizing label with
  | nil => rfl
  | cons c cs ih =>
    cases cs with
    | nil => rfl
    | cons d cs => exact (Nat.zero_max _).trans (ih (label + 1))

/-- The way through a text that is to read the character `c` next, and `cs` after it. -/
def Thread.ofText (label : Nat) (c : Char) (cs : List Char) : Thread where
  members := .single c
  frames := if cs = [] then [] else [.enter (Regex.ofText (label + 1) cs)]
  history := ⟨0, []⟩

namespace Regex

/-- To enter the expression of a text is to wait for its first character. -/
theorem enter_ofText (place : Place) (label : Nat) (c : Char) (cs : List Char) (goOn : GoOn) :
    ((ofText label (c :: cs)).enter place [] goOn ⟨0, []⟩ {}).threads = [.ofText label c cs] ∧
      ((ofText label (c :: cs)).enter place [] goOn ⟨0, []⟩ {}).ended = none := by
  cases cs <;> simp [ofText, enter, Frontier.visit_new, Frontier.push, Thread.ofText]

/-- The thread of a text after its character was read. -/
theorem update_advance_ofText (place : Place) (label : Nat) (c : Char) (cs : List Char) :
    Progress.update ⟨[.ofText label c cs], none⟩ (advance place c [.ofText label c cs]) place.count =
      match cs with
      | [] => ⟨[], some ⟨⟨0, place.count⟩, []⟩⟩
      | d :: ds => ⟨[.ofText (label + 1) d ds], none⟩ := by
  cases cs with
  | nil => simp [advance, Thread.ofText, resume, Progress.update, Frontier.finish, History.matchUpTo]
  | cons d ds =>
    obtain ⟨hthreads, hended⟩ :=
      enter_ofText place (label + 1) d ds (resume place [])
    have hadvance : advance place c [.ofText label c (d :: ds)] =
        (ofText (label + 1) (d :: ds)).enter place [] (resume place []) ⟨0, []⟩ {} := by
      simp [advance, Thread.ofText, resume]
    rw [hadvance, Progress.update, hthreads, hended]
    rfl

/-- **The thread of a text gets to the end where the text comes next.** -/
theorem follow_ofText (label : Nat) (c : Char) (cs before rest : List Char) (count : Nat) :
    follow before rest count ⟨[.ofText label c cs], none⟩ =
      if c :: cs <+: rest then some ⟨⟨0, count + (cs.length + 1)⟩, []⟩ else none := by
  induction rest generalizing label c cs before count with
  | nil => rw [follow, if_neg fun h => List.cons_ne_nil c cs (List.prefix_nil.1 h)]
  | cons x rest ih =>
    by_cases hx : x = c
    · subst hx
      have hstep := update_advance_ofText ⟨x :: before, rest, count + 1⟩ label x cs
      have hfront : x :: cs <+: x :: rest ↔ cs <+: rest := by
        rw [List.cons_prefix_cons, and_iff_right rfl]
      rw [follow, hstep]
      cases cs with
      | nil => rw [follow_none, if_pos (hfront.2 List.nil_prefix)]; rfl
      | cons d ds =>
        have hcount : count + 1 + (ds.length + 1) = count + ((d :: ds).length + 1) := by
          rw [List.length_cons]; omega
        simp only [ih, hfront, hcount]
    · have hadvance : advance ⟨x :: before, rest, count + 1⟩ x [.ofText label c cs] = {} := by
        simp [advance, Thread.ofText, hx]
      have hupdate : Progress.update ⟨[.ofText label c cs], none⟩ {} (count + 1) = ⟨[], none⟩ := rfl
      rw [follow, hadvance, hupdate, follow_none, if_neg]
      exact fun h => hx (List.cons_prefix_cons.1 h).1.symm

/-- **The expression of a text is found where the text stands at the head.** -/
theorem search_ofText (label : Nat) (text input : List Char) :
    (seq (.assert .textStart) (ofText label text)).search input =
      if text <+: input then some ⟨⟨0, text.length⟩, []⟩ else none := by
  rw [search_anchored]
  cases text with
  | nil => exact (follow_none [] input 0 _).trans (if_pos List.nil_prefix).symm
  | cons c cs =>
    obtain ⟨hthreads, hended⟩ :=
      enter_ofText ⟨[], input, 0⟩ label c cs (resume ⟨[], input, 0⟩ [])
    rw [Progress.update, hthreads, hended]
    have hfollow := follow_ofText label c cs [] input 0
    rw [Nat.zero_add] at hfollow
    exact hfollow

end Regex

/-! ## The rule -/

/-- **The rule of a text recognises that text and nothing else.** Every text has a rule. The rule
recognises something if and only if its text is not empty and stands at the head, and then it is the
text itself, without groups. -/
theorem Rule.matchHead_literal (text : String) :
    ∃ rule, Rule.literal text = .ok rule ∧ ∀ input : List Char, rule.matchHead input =
      if text ≠ "" ∧ text.toList <+: input then some ⟨text, none, none, []⟩ else none := by
  refine ⟨_, literal_eq text, fun input => ?_⟩
  have hregex : (Pattern.seq (.assert .textStart) (Pattern.ofText text.toList)).compile =
      .seq (.assert .textStart) (Regex.ofText 0 text.toList) :=
    congrArg (Regex.seq (.assert .textStart)) (Pattern.compileFrom_ofText text.toList 0)
  have hgroups : (Regex.seq (.assert .textStart) (Regex.ofText 0 text.toList)).groupCount = 0 :=
    (Nat.zero_max _).trans (Regex.groupCount_ofText 0 text.toList)
  rw [matchHead]
  simp only [hregex, hgroups, Regex.search_ofText]
  by_cases hfront : text.toList <+: input
  · have hof : Stretch.of ⟨0, text.toList.length⟩ input = text.toList := by
      obtain ⟨rest, rfl⟩ := hfront
      exact List.take_left
    rw [if_pos hfront, Option.bind_some, hof]
    by_cases hempty : text = ""
    · subst hempty; rfl
    · have hlist : text.toList.isEmpty = false := by
        rw [List.isEmpty_eq_false_iff]
        exact fun h => hempty (String.toList_eq_nil_iff.1 h)
      rw [hlist, if_neg Bool.false_ne_true, if_pos ⟨hempty, hfront⟩, String.ofList_toList]
      rfl
  · rw [if_neg hfront, if_neg fun h => hfront h.2]
    rfl

end GlobTree
