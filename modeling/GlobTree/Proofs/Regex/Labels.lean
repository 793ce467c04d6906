import GlobTree.Regex.Basic
import Mathlib.Logic.Function.Basic
/-!
# Labels

Compiling gives every part of an expression a label of its own, so that a label tells what is left
of the whole expression from there on. `Regex.Sits` says that a function gives for the labels of an
expression what is left from them on, if some other expressions come after it. There is such a
function for everything that is compiled (`Pattern.exists_sits`).
-/

namespace GlobTree

namespace Regex

/-- What is left from the labels of an expression on, when `others` come after it. For a loop this is
the loop as it is when its first copy is done. -/
def Sits (tails : Nat → List Regex) : Regex → List Regex → Prop
  | empty, _ | assert _, _ => True
  | one label members, others => tails label = one label members :: others
  | seq a b, others => a.Sits tails (b :: others) ∧ b.Sits tails others
  | alt label a b, others =>
    tails label = alt label a b :: others ∧ a.Sits tails others ∧ b.Sits tails others
  | group _ a, others => a.Sits tails others
  | star label greedy a, others | plus label greedy a, others =>
    tails label = star label greedy a :: others ∧ a.Sits tails (star label greedy a :: others)

end Regex

/-- What is left from the labels between two bounds on can be chosen so that something holds, no
matter what it is for smaller labels and whatever it will be for larger ones. -/
def Choosable (label next : Nat) (holds : (Nat → List Regex) → Prop) : Prop :=
  label ≤ next ∧ ∀ tails : Nat → List Regex, ∃ more : Nat → List Regex,
    (∀ l < label, more l = tails l) ∧ ∀ later, (∀ l < next, later l = more l) → holds later

namespace Choosable

variable {label middle next : Nat} {P Q : (Nat → List Regex) → Prop}

theorem trivial (label : Nat) (h : ∀ tails, P tails) : Choosable label label P :=
  ⟨Nat.le_refl _, fun tails => ⟨tails, fun _ _ => rfl, fun later _ => h later⟩⟩

theorem mono (h : Choosable label next P) (himp : ∀ tails, P tails → Q tails) :
    Choosable label next Q := by
  refine ⟨h.1, fun tails => ?_⟩
  obtain ⟨more, hbefore, hmore⟩ := h.2 tails
  exact ⟨more, hbefore, fun later hlater => himp later (hmore later hlater)⟩

/-- A single label. -/
theorem own (label : Nat) (tail : List Regex) :
    Choosable label (label + 1) fun tails => tails label = tail := by
  refine ⟨Nat.le_succ _, fun tails => ⟨Function.update tails label tail, fun l hl => ?_,
    fun later hlater => ?_⟩⟩
  · rw [Function.update_of_ne (Nat.ne_of_lt hl)]
  · show later label = tail
    rw [hlater label (Nat.lt_succ_self _), Function.update_self]

/-- **Labels one after the other.** -/
theorem and (hP : Choosable label middle P) (hQ : Choosable middle next Q) :
    Choosable label next fun tails => P tails ∧ Q tails := by
  refine ⟨Nat.le_trans hP.1 hQ.1, fun tails => ?_⟩
  obtain ⟨first, hbefore, hfirst⟩ := hP.2 tails
  obtain ⟨second, hbefore', hsecond⟩ := hQ.2 first
  have hle := hP.1
  have hle' := hQ.1
  refine ⟨second, fun l hl => ?_, fun later hlater => ⟨hfirst _ fun l hl => ?_, hsecond _ hlater⟩⟩
  · rw [hbefore' l (by omega), hbefore l hl]
  · rw [hlater l (by omega), hbefore' l hl]

end Choosable

namespace Compile

/-- An expression takes the labels from the given one up to the one that is free after it. -/
def Fresh (body : Compile) : Prop :=
  ∀ label others, Choosable label (body label).2 fun tails => (body label).1.Sits tails others

variable {body first second : Compile}

theorem fresh_empty : Fresh fun label => (.empty, label) :=
  fun label _ => .trivial label fun _ => True.intro

theorem fresh_andThen (hfirst : first.Fresh) (hsecond : second.Fresh) :
    (andThen first second).Fresh :=
  fun label others => (hfirst label _).and (hsecond (first label).2 others)

theorem fresh_copies (h : body.Fresh) (n : Nat) : (copies body n).Fresh := by
  induction n with
  | zero => exact fresh_empty
  | succ n ih => exact fresh_andThen h ih

/-- Where one may choose between an expression and nothing, it does not matter which is preferred. -/
theorem sits_opt {tails : Nat → List Regex} {others : List Regex} {label : Nat} {greedy : Bool}
    {a : Regex} (hown : tails label = Regex.opt label greedy a :: others)
    (ha : a.Sits tails others) : (Regex.opt label greedy a).Sits tails others := by
  cases greedy
  · exact ⟨hown, True.intro, ha⟩
  · exact ⟨hown, ha, True.intro⟩

theorem fresh_upTo (h : body.Fresh) (greedy : Bool) (n : Nat) : (upTo body greedy n).Fresh := by
  induction n with
  | zero => exact fresh_empty
  | succ n ih =>
    intro label others
    have hcopy := fresh_andThen h ih (label + 1) others
    exact ((Choosable.own label _).and hcopy).mono fun _ ⟨hown, hsits⟩ => sits_opt hown hsits

theorem fresh_oneOrMore (h : body.Fresh) (greedy : Bool) : (oneOrMore body greedy).Fresh :=
  fun label _ => (Choosable.own label _).and (h (label + 1) _)

theorem fresh_anyNumber (h : body.Fresh) (greedy : Bool) : (anyNumber body greedy).Fresh := by
  intro label others
  have hbody := h (label + 1)
  rw [anyNumber]
  generalize body (label + 1) = result at hbody
  obtain ⟨a, next⟩ := result
  dsimp only at hbody ⊢
  split
  · -- The choice to take a copy at all has a label before those of the copy, the loop one after them.
    let loop : Regex := .star next greedy a
    have hloop := (hbody (loop :: others)).and (Choosable.own next (loop :: others))
    exact ((Choosable.own label _).and hloop).mono fun _ ⟨hown, hsits, hnext⟩ =>
      sits_opt hown ⟨hnext, hsits⟩
  · exact (Choosable.own label _).and (hbody _)

theorem fresh_times (h : body.Fresh) (least : Nat) (most : Option Nat) (greedy : Bool) :
    (times body least most greedy).Fresh := by
  unfold times
  split
  next => exact fresh_anyNumber h greedy
  next n => exact fresh_andThen (fresh_copies h n) (fresh_oneOrMore h greedy)
  next most => exact fresh_andThen (fresh_copies h least) (fresh_upTo h greedy _)

end Compile

namespace Pattern

theorem fresh_compileFrom (p : Pattern) : Compile.Fresh p.compileFrom := by
  induction p with
  | empty | assert => exact fun label _ => .trivial label fun _ => True.intro
  | one members => exact fun label _ => .own label _
  | seq a b iha ihb => exact Compile.fresh_andThen iha ihb
  | alt a b iha ihb =>
    exact fun label others => (Choosable.own label _).and ((iha (label + 1) others).and (ihb _ others))
  | group index a ih => exact ih
  | times least most greedy a ih => exact Compile.fresh_times ih least most greedy

/-- **In a compiled expression every label tells what is left from it on.** -/
theorem exists_sits (p : Pattern) : ∃ tails, p.compile.Sits tails [] := by
  obtain ⟨-, hsits⟩ := p.fresh_compileFrom 0 []
  obtain ⟨tails, -, htails⟩ := hsits fun _ => []
  exact ⟨tails, htails tails fun _ _ => rfl⟩

end Pattern

end GlobTree
