import GlobTree.Regex.Matching
import GlobTree.Regex.Reading
import Mathlib.Computability.Language
import Mathlib.Logic.Relation
/-!
# Meaning of regular expressions

A regular expression leads from one place of a text to others. `Pattern.Leads` says where for an
expression as it is written, and `Regex.Leads` for one that texts are matched against. Both go by
the structure of the expression and know no preference of one way over another. Compiling changes
nothing (`Pattern.leads_compileFrom`).

As long as an expression asks for nothing but characters, all that matters is the text between two
places. Then it stands for a language (`Denotes`).
-/

namespace GlobTree

open Relation
open scoped Computability

/-- Reading a text leads from one place to another. -/
def Place.Reads (place : Place) (text : List Char) (next : Place) : Prop :=
  place.rest = text ++ next.rest ∧ next.before = text.reverse ++ place.before ∧
    next.count = place.count + text.length

namespace Place

variable {place next : Place}

theorem reads_nil : place.Reads [] next ↔ place = next := by
  obtain ⟨before, rest, count⟩ := place
  obtain ⟨before', rest', count'⟩ := next
  simp only [Reads, List.nil_append, List.reverse_nil, List.length_nil, Nat.add_zero, mk.injEq]
  constructor
  · rintro ⟨rfl, rfl, rfl⟩
    exact ⟨rfl, rfl, rfl⟩
  · rintro ⟨rfl, rfl, rfl⟩
    exact ⟨rfl, rfl, rfl⟩

theorem reads_append {a b : List Char} :
    place.Reads (a ++ b) next ↔ ∃ middle, place.Reads a middle ∧ middle.Reads b next := by
  constructor
  · rintro ⟨hrest, hbefore, hcount⟩
    refine ⟨⟨a.reverse ++ place.before, b ++ next.rest, place.count + a.length⟩,
      ⟨?_, rfl, rfl⟩, rfl, ?_, ?_⟩
    · rw [hrest, List.append_assoc]
    · rw [hbefore, List.reverse_append, List.append_assoc]
    · rw [hcount, List.length_append, Nat.add_assoc]
  · rintro ⟨middle, ⟨hrest, hbefore, hcount⟩, hrest', hbefore', hcount'⟩
    refine ⟨?_, ?_, ?_⟩
    · rw [hrest, hrest', List.append_assoc]
    · rw [hbefore', hbefore, List.reverse_append, List.append_assoc]
    · rw [hcount', hcount, List.length_append, Nat.add_assoc]

/-- From the start of a text, just the beginnings of the text can be read. -/
theorem reads_start {text read : List Char} :
    (∃ next : Place, next.rest = [] ∧ Reads ⟨[], text, 0⟩ read next) ↔ read = text := by
  constructor
  · rintro ⟨next, hend, hrest, -⟩
    rw [hend, List.append_nil] at hrest
    exact hrest.symm
  · rintro rfl
    exact ⟨⟨read.reverse, [], read.length⟩, rfl, by simp, by simp, by simp⟩

end Place

/-! ## Copies in a row -/

section Copies

variable {R : Place → Place → Prop}

/-- A number of copies of a relation in a row. -/
def Copies (R : Place → Place → Prop) : Nat → Place → Place → Prop
  | 0 => Eq
  | n + 1 => Comp R (Copies R n)

theorem copies_add (m n : Nat) : Copies R (m + n) = Comp (Copies R m) (Copies R n) := by
  induction m with
  | zero => rw [Nat.zero_add, Copies, eq_comp]
  | succ m ih => rw [Nat.succ_add, Copies, Copies, ih, comp_assoc]

theorem copies_one : Copies R 1 = R := comp_eq

/-- Any number of copies in a row. -/
theorem reflTransGen_iff_copies {place next : Place} :
    ReflTransGen R place next ↔ ∃ n, Copies R n place next := by
  constructor
  · intro h
    induction h using ReflTransGen.head_induction_on with
    | refl => exact ⟨0, rfl⟩
    | head hfirst _ ih =>
      obtain ⟨n, hn⟩ := ih
      exact ⟨n + 1, _, hfirst, hn⟩
  · rintro ⟨n, hn⟩
    induction n generalizing place with
    | zero => exact hn ▸ .refl
    | succ n ih =>
      obtain ⟨middle, hfirst, hothers⟩ := hn
      exact .head hfirst (ih hothers)

end Copies

/-! ## Where expressions lead -/

/-- Where an expression leads from a place. -/
def Pattern.Leads : Pattern → Place → Place → Prop
  | empty => Eq
  | one members => fun place next => ∃ c, members.contains c ∧ place.Reads [c] next
  | assert condition => fun place next => condition.holds place ∧ place = next
  | seq a b => Comp a.Leads b.Leads
  | alt a b => fun place next => a.Leads place next ∨ b.Leads place next
  | group _ a => a.Leads
  | times least most _ a => fun place next =>
    ∃ more, (∀ bound ∈ most, more ≤ bound - least) ∧ Copies a.Leads (least + more) place next

/-- Where an expression leads from a place. -/
def Regex.Leads : Regex → Place → Place → Prop
  | empty => Eq
  | one _ members => fun place next => ∃ c, members.contains c ∧ place.Reads [c] next
  | assert condition => fun place next => condition.holds place ∧ place = next
  | seq a b => Comp a.Leads b.Leads
  | alt _ a b => fun place next => a.Leads place next ∨ b.Leads place next
  | group _ a => a.Leads
  | star _ _ a => ReflTransGen a.Leads
  | plus _ _ a => Comp a.Leads (ReflTransGen a.Leads)

theorem Regex.leads_opt (label : Nat) (greedy : Bool) (a : Regex) :
    (opt label greedy a).Leads = fun place next => place = next ∨ a.Leads place next := by
  funext place next
  cases greedy
  · rfl
  · exact propext or_comm

namespace Compile

/-- The expression leads where the relation says, whatever label it gets. -/
def Leads (body : Compile) (R : Place → Place → Prop) : Prop :=
  ∀ label, (body label).1.Leads = R

variable {body first second : Compile} {R S : Place → Place → Prop}

theorem leads_andThen (hfirst : first.Leads R) (hsecond : second.Leads S) :
    (andThen first second).Leads (Comp R S) := by
  intro label
  rw [andThen, Regex.Leads, hfirst, hsecond]

theorem leads_copies (h : body.Leads R) (n : Nat) : (copies body n).Leads (Copies R n) := by
  induction n with
  | zero => exact fun _ => rfl
  | succ n ih =>
    intro label
    rw [copies, Regex.Leads, h, ih]
    rfl

theorem leads_upTo (h : body.Leads R) (greedy : Bool) (n : Nat) :
    (upTo body greedy n).Leads fun place next => ∃ k ≤ n, Copies R k place next := by
  induction n with
  | zero =>
    intro label
    funext place next
    simp [upTo, Regex.Leads, Copies]
  | succ n ih =>
    intro label
    rw [upTo, Regex.leads_opt, Regex.Leads, h, ih]
    funext place next
    refine propext ⟨?_, ?_⟩
    · rintro (rfl | ⟨middle, hfirst, k, hk, hothers⟩)
      · exact ⟨0, Nat.zero_le _, rfl⟩
      · exact ⟨k + 1, Nat.succ_le_succ hk, middle, hfirst, hothers⟩
    · rintro ⟨k, hk, hcopies⟩
      cases k with
      | zero => exact .inl hcopies
      | succ k =>
        obtain ⟨middle, hfirst, hothers⟩ := hcopies
        exact .inr ⟨middle, hfirst, k, Nat.le_of_succ_le_succ hk, hothers⟩

theorem leads_oneOrMore (h : body.Leads R) (greedy : Bool) :
    (oneOrMore body greedy).Leads (Comp R (ReflTransGen R)) := by
  intro label
  rw [oneOrMore, Regex.Leads, h]

/-- Both forms of a loop lead to the same places. -/
theorem leads_anyNumber (h : body.Leads R) (greedy : Bool) :
    (anyNumber body greedy).Leads (ReflTransGen R) := by
  intro label
  have hbody := h (label + 1)
  rw [anyNumber]
  generalize body (label + 1) = result at hbody
  obtain ⟨a, free⟩ := result
  dsimp only at hbody ⊢
  split
  · rw [Regex.leads_opt, Regex.Leads, hbody]
    funext place next
    refine propext ⟨?_, fun hstar => ?_⟩
    · rintro (rfl | ⟨middle, hfirst, hothers⟩)
      · exact .refl
      · exact .head hfirst hothers
    · rcases hstar.cases_head with rfl | hothers
      · exact .inl rfl
      · exact .inr hothers
  · rw [Regex.Leads, hbody]

theorem leads_times (h : body.Leads R) (least : Nat) (most : Option Nat) (greedy : Bool) :
    (times body least most greedy).Leads fun place next =>
      ∃ more, (∀ bound ∈ most, more ≤ bound - least) ∧ Copies R (least + more) place next := by
  have hsplit (least more : Nat) (place next : Place) :
      Copies R (least + more) place next ↔ Comp (Copies R least) (Copies R more) place next := by
    rw [copies_add]
  intro label
  funext place next
  unfold times
  split
  next =>
    rw [leads_anyNumber h]
    simp [reflTransGen_iff_copies]
  next n =>
    rw [leads_andThen (leads_copies h n) (leads_oneOrMore h greedy)]
    refine propext ⟨?_, ?_⟩
    · rintro ⟨middle, hcopies, last, hlast, hothers⟩
      obtain ⟨more, hmore⟩ := reflTransGen_iff_copies.1 hothers
      refine ⟨more, by simp, ?_⟩
      show Copies R (n + 1 + more) place next
      rw [Nat.add_assoc, hsplit]
      exact ⟨middle, hcopies, by rw [hsplit]; exact ⟨last, copies_one ▸ hlast, hmore⟩⟩
    · rintro ⟨more, -, hcopies⟩
      change Copies R (n + 1 + more) place next at hcopies
      rw [Nat.add_assoc, hsplit] at hcopies
      obtain ⟨middle, hcopies, hothers⟩ := hcopies
      rw [hsplit, copies_one] at hothers
      obtain ⟨last, hlast, hmore⟩ := hothers
      exact ⟨middle, hcopies, last, hlast, reflTransGen_iff_copies.2 ⟨more, hmore⟩⟩
  next most =>
    rw [leads_andThen (leads_copies h least) (leads_upTo h greedy (most - least))]
    refine propext ⟨?_, ?_⟩
    · rintro ⟨middle, hcopies, more, hle, hmore⟩
      exact ⟨more, by simpa using hle, (hsplit ..).2 ⟨middle, hcopies, hmore⟩⟩
    · rintro ⟨more, hle, hcopies⟩
      obtain ⟨middle, hcopies, hmore⟩ := (hsplit ..).1 hcopies
      exact ⟨middle, hcopies, more, by simpa using hle, hmore⟩

end Compile

/-- **Compiling does not change where an expression leads.** -/
theorem Pattern.leads_compileFrom (p : Pattern) : Compile.Leads p.compileFrom p.Leads := by
  induction p with
  | empty | one | assert => exact fun _ => rfl
  | seq a b iha ihb =>
    intro label
    rw [compileFrom, Compile.leads_andThen iha ihb, Leads]
  | alt a b iha ihb =>
    intro label
    rw [compileFrom, Regex.Leads, iha, ihb, Leads]
  | group index a ih =>
    intro label
    rw [compileFrom, Regex.Leads, ih, Leads]
  | times least most greedy a ih =>
    intro label
    rw [compileFrom, Compile.leads_times ih, Leads]

/-! ## Languages -/

namespace Texts

/-- A single text. -/
def just (text : List Char) : Language Char := {read | read = text}

/-- The texts of one character of some kind. -/
def oneOf (P : Char → Prop) : Language Char := {read | ∃ c, P c ∧ read = [c]}

/-- The texts of any length with characters of some kind. -/
def allOf (P : Char → Prop) : Language Char := {read | ∀ c ∈ read, P c}

theorem mem_just {text read : List Char} : read ∈ just text ↔ read = text := Iff.rfl

theorem mem_oneOf {P : Char → Prop} {read : List Char} :
    read ∈ oneOf P ↔ ∃ c, P c ∧ read = [c] := Iff.rfl

theorem mem_allOf {P : Char → Prop} {read : List Char} : read ∈ allOf P ↔ ∀ c ∈ read, P c := Iff.rfl

theorem just_nil : just [] = 1 := rfl

theorem just_cons (c : Char) (cs : List Char) : just (c :: cs) = just [c] * just cs := by
  ext read
  simp [Language.mem_mul, mem_just, eq_comm]

theorem oneOf_eq (c : Char) : oneOf (· = c) = just [c] := by
  ext read
  simp [mem_oneOf, mem_just]

theorem kstar_oneOf (P : Char → Prop) : (oneOf P)∗ = allOf P := by
  ext read
  rw [Language.mem_kstar, mem_allOf]
  constructor
  · rintro ⟨parts, rfl, hparts⟩ c hc
    obtain ⟨part, hpart, hc⟩ := List.mem_flatten.1 hc
    obtain ⟨d, hd, rfl⟩ := hparts part hpart
    exact List.mem_singleton.1 hc ▸ hd
  · intro hread
    refine ⟨read.map fun c => [c], ?_, fun part hpart => ?_⟩
    · rw [← List.flatMap_def, List.flatMap_singleton']
    · obtain ⟨c, hc, rfl⟩ := List.mem_map.1 hpart
      exact ⟨c, hread c hc, rfl⟩

end Texts

/-- A relation between places holds if and only if a text of the language is between them. -/
def Denotes (R : Place → Place → Prop) (L : Language Char) : Prop :=
  ∀ place next, R place next ↔ ∃ text ∈ L, place.Reads text next

namespace Denotes

variable {R S : Place → Place → Prop} {L M : Language Char}

theorem eq_one : Denotes Eq 1 := by
  intro place next
  simp [Language.mem_one, Place.reads_nil]

theorem comp (hR : Denotes R L) (hS : Denotes S M) : Denotes (Comp R S) (L * M) := by
  intro place next
  constructor
  · rintro ⟨middle, hfirst, hsecond⟩
    obtain ⟨a, ha, hreads⟩ := (hR _ _).1 hfirst
    obtain ⟨b, hb, hreads'⟩ := (hS _ _).1 hsecond
    exact ⟨a ++ b, Language.append_mem_mul ha hb, Place.reads_append.2 ⟨middle, hreads, hreads'⟩⟩
  · rintro ⟨_, htext, hreads⟩
    obtain ⟨a, ha, b, hb, rfl⟩ := Language.mem_mul.1 htext
    obtain ⟨middle, hreads, hreads'⟩ := Place.reads_append.1 hreads
    exact ⟨middle, (hR _ _).2 ⟨a, ha, hreads⟩, (hS _ _).2 ⟨b, hb, hreads'⟩⟩

theorem or (hR : Denotes R L) (hS : Denotes S M) :
    Denotes (fun place next => R place next ∨ S place next) (L + M) := by
  intro place next
  simp only [hR place next, hS place next, Language.mem_add, or_and_right, exists_or]

theorem copies (h : Denotes R L) (n : Nat) : Denotes (Copies R n) (L ^ n) := by
  induction n with
  | zero => exact pow_zero L ▸ eq_one
  | succ n ih => exact pow_succ' L n ▸ h.comp ih

theorem reflTransGen (h : Denotes R L) : Denotes (ReflTransGen R) L∗ := by
  intro place next
  simp only [reflTransGen_iff_copies, h.copies _ place next, Language.kstar_eq_iSup_pow,
    Language.mem_iSup]
  constructor
  · rintro ⟨n, text, htext, hreads⟩
    exact ⟨text, ⟨n, htext⟩, hreads⟩
  · rintro ⟨text, ⟨n, htext⟩, hreads⟩
    exact ⟨n, text, htext, hreads⟩

/-- One character of a class. -/
theorem one {members : CharClass} {P : Char → Prop}
    (hmembers : ∀ c, members.contains c = true ↔ P c) :
    Denotes (Pattern.one members).Leads (Texts.oneOf P) := by
  intro place next
  constructor
  · rintro ⟨c, hc, hreads⟩
    exact ⟨[c], ⟨c, (hmembers c).1 hc, rfl⟩, hreads⟩
  · rintro ⟨_, ⟨c, hc, rfl⟩, hreads⟩
    exact ⟨c, (hmembers c).2 hc, hreads⟩

theorem single (c : Char) : Denotes (Pattern.one (.single c)).Leads (Texts.just [c]) := by
  rw [← Texts.oneOf_eq]
  exact one fun d => by simp

theorem times_star {p : Pattern} (h : Denotes p.Leads L) (greedy : Bool) :
    Denotes (p.times 0 none greedy).Leads L∗ := by
  have hleads : (p.times 0 none greedy).Leads = ReflTransGen p.Leads := by
    funext place next
    simp [Pattern.Leads, reflTransGen_iff_copies]
  exact hleads ▸ h.reflTransGen

theorem times_plus {p : Pattern} (h : Denotes p.Leads L) (greedy : Bool) :
    Denotes (p.times 1 none greedy).Leads (L * L∗) := by
  have hleads : (p.times 1 none greedy).Leads = Comp p.Leads (ReflTransGen p.Leads) := by
    funext place next
    simp only [Pattern.Leads, copies_add, copies_one, Comp, reflTransGen_iff_copies]
    refine propext ⟨?_, ?_⟩
    · rintro ⟨more, -, middle, hfirst, hmore⟩
      exact ⟨middle, hfirst, more, hmore⟩
    · rintro ⟨middle, hfirst, more, hmore⟩
      exact ⟨more, by simp, middle, hfirst, hmore⟩
  exact hleads ▸ h.comp h.reflTransGen

theorem times_opt {p : Pattern} (h : Denotes p.Leads L) (greedy : Bool) :
    Denotes (p.times 0 (some 1) greedy).Leads (1 + L) := by
  have hleads : (p.times 0 (some 1) greedy).Leads =
      fun place next => place = next ∨ p.Leads place next := by
    funext place next
    refine propext ⟨?_, ?_⟩
    · rintro ⟨more, hle, hcopies⟩
      have hmore : more ≤ 1 := hle 1 rfl
      rw [Nat.zero_add] at hcopies
      rcases Nat.le_one_iff_eq_zero_or_eq_one.1 hmore with rfl | rfl
      · exact .inl hcopies
      · rw [copies_one] at hcopies
        exact .inr hcopies
    · rintro (rfl | h)
      · exact ⟨0, by simp, rfl⟩
      · exact ⟨1, by simp, copies_one.symm ▸ h⟩
  exact hleads ▸ eq_one.or h

end Denotes

/-! ## Alternations that are read -/

theorem Pattern.leads_seqs_concat (ps : List Pattern) (p : Pattern) :
    (seqs (ps ++ [p])).Leads = Comp (seqs ps).Leads p.Leads := by
  induction ps with
  | nil => exact eq_comp.symm
  | cons first ps ih =>
    cases ps with
    | nil => rfl
    | cons second ps =>
      have hfirst : (seqs (first :: second :: ps)).Leads =
        Comp first.Leads (seqs (second :: ps)).Leads := rfl
      show Comp first.Leads (seqs (second :: ps ++ [p])).Leads = _
      rw [ih, hfirst, comp_assoc]

theorem Pattern.leads_alts {ps : List Pattern} (h : ps ≠ []) {place next : Place} :
    (alts ps).Leads place next ↔ ∃ p ∈ ps, p.Leads place next := by
  induction ps with
  | nil => exact absurd rfl h
  | cons first ps ih =>
    cases ps with
    | nil => simp [alts]
    | cons second ps =>
      have hfirst : (alts (first :: second :: ps)).Leads place next ↔
        first.Leads place next ∨ (alts (second :: ps)).Leads place next := Iff.rfl
      rw [hfirst, ih (List.cons_ne_nil _ _)]
      simp only [List.mem_cons, exists_eq_or_imp]

/-- The complete alternatives of an alternation stand for the first language, the alternative that is
being read for the second. -/
structure Branch.Denotes (branch : Branch) (done current : Language Char) : Prop where
  complete : GlobTree.Denotes
    (fun place next => ∃ p ∈ branch.complete, p.Leads place next) done
  alternative : GlobTree.Denotes branch.alternative.Leads current

namespace Branch.Denotes

variable {branch : Branch} {done current L : Language Char}

theorem empty : ({} : Branch).Denotes 0 1 := by
  refine ⟨fun place next => ?_, GlobTree.Denotes.eq_one⟩
  simp [Language.notMem_zero]

theorem add (h : branch.Denotes done current) {item : Pattern} {depth : Nat}
    (hitem : GlobTree.Denotes item.Leads L) :
    (branch.add item depth).Denotes done (current * L) := by
  refine ⟨h.complete, ?_⟩
  have hleads : (branch.add item depth).alternative.Leads =
      Comp branch.alternative.Leads item.Leads := by
    have hitems : (branch.add item depth).allItems.reverse = branch.allItems.reverse ++ [item] := by
      simp [Branch.add, allItems]
    rw [Branch.alternative, hitems, Pattern.leads_seqs_concat]
    rfl
  rw [hleads]
  exact h.alternative.comp hitem

theorem next (h : branch.Denotes done current) : branch.next.Denotes (done + current) 1 := by
  refine ⟨?_, GlobTree.Denotes.eq_one⟩
  have hcomplete : (fun place next => ∃ p ∈ branch.next.complete, p.Leads place next) =
      fun place next => (∃ p ∈ branch.complete, p.Leads place next) ∨
        branch.alternative.Leads place next := by
    funext place next
    rw [Branch.next, List.exists_mem_cons_iff, or_comm]
  rw [hcomplete]
  exact h.complete.or h.alternative

/-- **The whole alternation stands for both languages together.** -/
theorem whole (h : branch.Denotes done current) :
    GlobTree.Denotes branch.whole.Leads (done + current) := by
  have hleads : branch.whole.Leads = fun place next =>
      (∃ p ∈ branch.complete, p.Leads place next) ∨ branch.alternative.Leads place next := by
    funext place next
    rw [Branch.whole, Pattern.leads_alts (by simp)]
    simp [or_comm]
  rw [hleads]
  exact h.complete.or h.alternative

end Branch.Denotes

end GlobTree
