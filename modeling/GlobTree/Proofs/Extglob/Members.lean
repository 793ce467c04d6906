import GlobTree.Proofs.Extglob.Composition
import GlobTree.Proofs.Extglob.Meaning
/-!
# Plain and escaped members of brackets

A pattern writes a member of brackets as a plain character or as an escape (`Member`). No matter in
which way its members are written, the brackets lead to one tree (`leads_bracketPattern`) and to the
bracket expression of the characters of the members.

In that expression all characters stand for themselves but the minus sign, for it is written without
a backslash even where the pattern had one. Where minus signs stand at the ends only (`SignsAtEnds`),
the class is the set of the members (`contains_bracketClass`); where one stands between two other
members, it is the sign of a range. `toRegex_bracketPattern` says both.
-/

namespace GlobTree.Extglob

open Draft

/-! ## Members as a pattern writes them -/

/-- A member of brackets, as a pattern writes it. -/
inductive Member
  /-- A character that is text in brackets. -/
  | plain (c : Char) (h : isMember c)
  /-- A character after a backslash. -/
  | escaped (c : Char)

namespace Member

/-- The character that is meant. -/
def char : Member → Char
  | plain c _ | escaped c => c

/-- How it is written. -/
def text : Member → List Char
  | plain c _ => [c]
  | escaped c => ['\\', c]

/-- Whether it is written without a backslash. -/
def isPlain : Member → Bool
  | plain _ _ => true
  | escaped _ => false

end Member

/-- Members one after the other, as a pattern writes them. -/
def spell (members : List Member) : List Char := members.flatMap Member.text

/-- The pattern with members in brackets, after a sign that negates them or none. -/
def bracketPattern (sign : Option Char) (members : List Member) : String :=
  String.ofList ('[' :: (sign.toList ++ (spell members ++ [']'])))

/-! ## The tree of the brackets -/

theorem spell_append (members others : List Member) :
    spell (members ++ others) = spell members ++ spell others :=
  List.flatMap_append

theorem spell_ne_nil {members : List Member} (hne : members ≠ []) : spell members ≠ [] := by
  obtain ⟨member, members, rfl⟩ := List.exists_cons_of_ne_nil hne
  cases member <;> exact List.cons_ne_nil _ _

/-- Plain members are written as they are. -/
theorem spell_eq_map {members : List Member} (h : ∀ member ∈ members, member.isPlain) :
    spell members = members.map Member.char := by
  induction members with
  | nil => rfl
  | cons member members ih =>
    obtain ⟨hfirst, hothers⟩ := List.forall_mem_cons.1 h
    cases member with
    | plain c hc => exact congrArg (c :: ·) (ih hothers)
    | escaped c => cases hfirst

/-- A run of text in brackets has all plain members up to the next escape. -/
theorem takeWhile_isMember_spell (members : List Member) (rest : List Char) :
    (spell members ++ ']' :: rest).takeWhile isMember =
      spell (members.takeWhile Member.isPlain) := by
  induction members with
  | nil => rfl
  | cons member members ih =>
    cases member with
    | plain c hc =>
      have htext : spell (.plain c hc :: members) ++ ']' :: rest =
        c :: (spell members ++ ']' :: rest) := rfl
      rw [htext, List.takeWhile_cons_of_pos hc, ih]
      rfl
    | escaped c => rfl

theorem translate_token (kind : Kind) (raw : List Char) :
    translate (some .bracket) (.leaf (bare (.token kind) raw)) =
      .ok (escapeClass (literal kind raw)) := by
  have htree : translate (some .bracket) (.leaf (bare (.token kind) raw)) =
    .ok (escapeClass (literal kind (String.ofList raw).toList) ++ []) := rfl
  rw [htree, String.toList_ofList, List.append_nil]

/-- A place in brackets at the start of a text. -/
def inBrackets (lead : Option String) (inner : Forest (Entry Kind)) : Zipper (Entry Kind) :=
  ⟨[⟨bare (.group .bracket) [] lead, .nil⟩], inner⟩

/-- A forest has the translation of some members, and something other than delimiters if there are
any. -/
structure Holds (members : List Member) (f : Forest (Entry Kind)) : Prop where
  translated : translate (some .bracket) f = .ok (escapeClass (members.map Member.char))
  empty : f.roots.all (·.role.isDelimiter) = members.isEmpty

/-- A token holds the members that it is written for, and others may follow. -/
theorem Holds.token {members others : List Member} {f : Forest (Entry Kind)} {kind : Kind}
    {raw : List Char} (hne : members ≠ []) (hliteral : literal kind raw = members.map Member.char)
    (h : Holds others f) :
    Holds (members ++ others) (.leaf (bare (.token kind) raw) ++ f) where
  translated := by
    rw [translate_append_eq_ok (translate_token kind raw) h.translated, hliteral, List.map_append,
      escapeClass_append]
  empty := by
    have hempty : (members ++ others).isEmpty = false := by simp [hne]
    rw [hempty]
    rfl

/-- **Members lead to tokens that hold them.** -/
theorem exists_leads_spell (lead : Option String) (members : List Member)
    (inner : Forest (Entry Kind)) (rest : List Char) :
    ∃ f, Holds members f ∧
      Leads (spell members) (']' :: rest) (inBrackets lead inner) (inBrackets lead (inner ++ f)) := by
  match members with
  | [] =>
    refine ⟨.nil, ⟨rfl, rfl⟩, fun draft place hdraft => ⟨draft, place, ?_, rfl⟩⟩
    rwa [Forest.append_nil]
  | .escaped c :: members =>
    let token : Forest (Entry Kind) := .leaf (bare (.token .escape) ['\\', c])
    obtain ⟨f, holds, hleads⟩ := exists_leads_spell lead members (inner ++ token) rest
    have hcut : cut (some .bracket) '\\' ([c] ++ (spell members ++ ']' :: rest)) =
      (.token .escape none, 1) := cut_escape c _
    have hfirst : Leads ['\\', c] (spell members ++ ']' :: rest) (inBrackets lead inner)
      (inBrackets lead (inner ++ token)) := leads_piece (inBrackets lead inner) '\\' [c] _ hcut rfl
    have hliteral : literal .escape ['\\', c] = [Member.escaped c].map Member.char := rfl
    refine ⟨token ++ f, holds.token (List.cons_ne_nil _ _) hliteral, ?_⟩
    rw [← Forest.append_assoc]
    exact hfirst.trans hleads
  | .plain c hc :: members =>
    -- All plain characters up to the next escape are one token.
    let run := members.takeWhile Member.isPlain
    let others := members.dropWhile Member.isPlain
    let token : Forest (Entry Kind) := .leaf (bare (.token .text) (c :: spell run))
    have hsplit : members = run ++ others := List.takeWhile_append_dropWhile.symm
    have hshorter : others.length < members.length + 1 :=
      Nat.lt_succ_of_le (List.dropWhile_suffix Member.isPlain).length_le
    obtain ⟨f, holds, hleads⟩ := exists_leads_spell lead others (inner ++ token) rest
    have hmore : spell run ++ (spell others ++ ']' :: rest) = spell members ++ ']' :: rest := by
      rw [← List.append_assoc, ← spell_append, ← hsplit]
    have hplain : literal .text (c :: spell run) = (.plain c hc :: run).map Member.char := by
      have hrun : ∀ member ∈ run, member.isPlain := fun member => List.mem_takeWhile_imp
      exact congrArg (c :: ·) (spell_eq_map hrun)
    have hcut : cut (some .bracket) c (spell run ++ (spell others ++ ']' :: rest)) =
        (.token .text none, (spell run).length) := by
      have hne : c ≠ ']' ∧ c ≠ '\\' := by
        constructor <;> rintro rfl <;> cases hc
      rw [hmore, cut, if_neg fun h => hne.2 h.1, if_pos rfl, cutInBracket, if_neg hne.1,
        if_neg hne.2, takeWhile_isMember_spell]
    have hfirst : Leads (c :: spell run) (spell others ++ ']' :: rest) (inBrackets lead inner)
      (inBrackets lead (inner ++ token)) :=
        leads_piece (inBrackets lead inner) c (spell run) _ hcut rfl
    have htext : spell (.plain c hc :: members) = c :: spell run ++ spell others := by
      rw [List.cons_append, ← spell_append, ← hsplit]
      rfl
    refine ⟨token ++ f, ?_, ?_⟩
    · have hholds := holds.token (List.cons_ne_nil _ _) hplain
      rwa [List.cons_append, ← hsplit] at hholds
    · rw [htext, ← Forest.append_assoc]
      exact hfirst.trans hleads
termination_by members.length
decreasing_by
  · exact Nat.lt_succ_self members.length
  · exact hshorter

/-- The tree of brackets. -/
def bracketTree (lead : Option String) (raw : List Char) (f : Forest (Entry Kind)) :
    Forest (Entry Kind) :=
  .cons (bare (.group .bracket) [] lead)
    (.leaf (bare (.opening .bracket) raw) ++ f ++ .leaf (bare (.closing .bracket) [']'])) .nil

/-- Brackets that hold something have a translation. -/
theorem translate_bracketTree {members : List Member} {f : Forest (Entry Kind)}
    (h : Holds members f) (hne : members ≠ []) (lead : Option String) (raw : List Char) :
    translate none (bracketTree lead raw f) =
      .ok (bracketRegex lead.isSome (members.map Member.char)) := by
  let below : Forest (Entry Kind) :=
    .leaf (bare (.opening .bracket) raw) ++ f ++ .leaf (bare (.closing .bracket) [']'])
  have hbelow : translate (some .bracket) below =
      .ok (escapeClass (members.map Member.char)) := by
    have hopening : translate (some .bracket) (.leaf (bare (.opening .bracket) raw)) = .ok [] := rfl
    have hclosing : translate (some .bracket) (.leaf (bare (.closing .bracket) [']'])) = .ok [] :=
      rfl
    have hall := translate_append_eq_ok (translate_append_eq_ok hopening h.translated) hclosing
    rwa [List.nil_append, List.append_nil] at hall
  have hlast : below.roots.getLast?.map (·.role) = some (.closing .bracket) := by
    rw [Forest.roots_append, List.getLast?_append]
    rfl
  have hholds : ¬ below.roots.all (·.role.isDelimiter) := by
    simp [below, h.empty, hne]
  have hrole : (bare (Role.group Kind.bracket) [] lead).role = .group .bracket := rfl
  have hlead : (bare (Role.group Kind.bracket) [] lead).lead = lead := rfl
  have htree : treeRegex none (bare (.group .bracket) [] lead) below.roots
      (fun kind => translate (some kind) below) =
        .ok (bracketRegex lead.isSome (members.map Member.char)) := by
    rw [treeRegex, hrole]
    simp only [hlast, if_true, groupRegex, if_neg hholds, hbelow, hlead]
    cases lead <;> rfl
  have hwhole : bracketTree lead raw f = .cons (bare (.group .bracket) [] lead) below .nil := rfl
  rw [hwhole, translate, htree]
  exact congrArg Except.ok (List.append_nil _)

/-- The opening of brackets, up to the sign in it. -/
theorem cut_opening_bracket {sign : Option Char} (hsign : ∀ c ∈ sign, c = '!' ∨ c = '^')
    {rest : List Char} (hrest : sign = none → rest.head? ≠ some '!' ∧ rest.head? ≠ some '^') :
    cut none '[' (sign.toList ++ rest) =
      (.opening .bracket (sign.map fun c => String.ofList [c]), sign.toList.length) := by
  cases sign with
  | none =>
    have hneither : ¬ (rest.head? = some '!' ∨ rest.head? = some '^') := not_or.2 (hrest rfl)
    show (if rest.head? = some '!' ∨ rest.head? = some '^' then _ else _) = _
    rw [if_neg hneither]
    rfl
  | some c => rcases hsign c rfl with rfl | rfl <;> rfl

/-- **Brackets have the bracket expression of their members**, however these are written. -/
theorem toRegex_bracketPattern_eq {sign : Option Char} {members : List Member}
    (hsign : ∀ c ∈ sign, c = '!' ∨ c = '^') (hne : members ≠ [])
    (hfirst : sign = none → (spell members).head? ≠ some '!' ∧ (spell members).head? ≠ some '^') :
    toRegex (bracketPattern sign members) =
      .ok (String.ofList (bracketRegex sign.isSome (members.map Member.char))) := by
  let lead := sign.map fun c => String.ofList [c]
  let opening : Forest (Entry Kind) := .leaf (bare (.opening .bracket) ('[' :: sign.toList))
  obtain ⟨f, holds, hmembers⟩ := exists_leads_spell lead members opening []
  have hopening : Leads ('[' :: sign.toList) (spell members ++ ([']'] ++ [])) {}
      (inBrackets lead opening) := by
    refine leads_piece {} '[' sign.toList _ (cut_opening_bracket hsign fun hnone => ?_) trivial
    rw [List.head?_append_of_ne_nil _ (spell_ne_nil hne)]
    exact hfirst hnone
  have hclosing : Leads [']'] [] (inBrackets lead (opening ++ f))
    ⟨[], bracketTree lead ('[' :: sign.toList) f⟩ :=
      leads_piece (inBrackets lead (opening ++ f)) ']' [] [] rfl rfl
  have hleads := (hopening.trans hmembers).trans hclosing
  have htranslate := translate_bracketTree holds hne lead ('[' :: sign.toList)
  have htext : '[' :: sign.toList ++ spell members ++ [']'] =
      (bracketPattern sign members).toList := by
    simp [bracketPattern]
  rw [htext] at hleads
  rw [toRegex_of_leads hleads htranslate]
  cases sign <;> rfl

/-! ## The class of the members -/

/-- Minus signs stand at the start, or one at the end. -/
def SignsAtEnds (members : List Char) : Prop := '-' ∉ (members.dropWhile (· = '-')).dropLast

instance (members : List Char) : Decidable (SignsAtEnds members) :=
  inferInstanceAs (Decidable ('-' ∉ (members.dropWhile (· = '-')).dropLast))

/-- Without a minus sign in front of the last one, every member is taken for itself. -/
theorem readMembers_of_notMem {members : List Char} (h : '-' ∉ members.dropLast)
    (left : Option NestedClass) (collected : List NestedClass) :
    readMembers left collected members =
      .ok (memberClass left (members.reverse.map (.flat ∘ .single) ++ collected)) := by
  fun_induction readMembers left collected members with
  | case1 => rfl
  | case2 left collected rest => simp at h
  | case3 left collected c rest => simp at h
  | case4 left collected c d rest => simp at h
  | case5 left collected c d rest => simp at h
  | case6 left collected c rest h₁ h₂ h₃ ih =>
    have hrest : '-' ∉ rest.dropLast := fun hmem => h (by cases rest <;> simp_all)
    rw [ih hrest, List.reverse_cons, List.map_append, List.append_assoc]
    rfl

/-- **The class of members with minus signs at the ends only is the set of the members.** -/
theorem contains_bracketClass {members : List Char} (h : SignsAtEnds members) (negated : Bool) :
    ∃ set, bracketClass negated members = .ok set ∧
      ∀ c, set.contains c ↔ if negated then c ∉ members else c ∈ members := by
  let signs := (leadingSigns members).map NestedClass.flat
  let others := members.dropWhile (· = '-')
  have hmem (c : Char) :
      (memberClass none (others.reverse.map (.flat ∘ .single) ++ signs)).set.contains c ↔
        c ∈ members := by
    have hall : members = members.takeWhile (· = '-') ++ others :=
      List.takeWhile_append_dropWhile.symm
    rw [memberClass, NestedClass.union, CharClass.contains_unions, hall]
    simp [signs, leadingSigns, NestedClass.flat, or_comm]
  have hread : readBracket negated members = .ok (closed negated _) :=
    congrArg (Except.map (closed negated)) (readMembers_of_notMem h none signs)
  refine ⟨_, congrArg (Except.map NestedClass.set) hread, fun c => ?_⟩
  cases negated with
  | false => exact hmem c
  | true => simpa [closed, CharClass.complIf] using not_congr (hmem c)

/-! ## What the brackets match -/

/-- Brackets that are read as a class match just one character of it. -/
theorem matchesJust_bracketRegex {negated : Bool} {members : List Char} (hne : members ≠ [])
    {set : CharClass} (hset : bracketClass negated members = .ok set) {P : Char → Prop}
    (hP : ∀ c, set.contains c ↔ P c) :
    MatchesJust (bracketRegex negated members) (Texts.oneOf P) := by
  obtain ⟨read, hread, rfl⟩ := map_eq_ok_iff.1 hset
  have hinner : (readBracket negated members).map
      (fun read => ({} : Branch).add (.one read.set) read.depth) =
        .ok (({} : Branch).add (.one read.set) read.depth) := by
    rw [hread]
    rfl
  have hbranch : (({} : Branch).add (.one read.set) read.depth).Denotes 0 (1 * Texts.oneOf P) :=
    Branch.Denotes.empty.add (.one hP)
  have hdenotes := hbranch.whole
  rw [zero_add, one_mul] at hdenotes
  exact matchesJust_of_alters (fun rest _ => alters_bracketRegex negated hne rest) hinner hdenotes

/-- Brackets that are not read as a class are not well-formed. -/
theorem read_bracketRegex_of_error {negated : Bool} {members : List Char} (hne : members ≠ [])
    {error : SyntaxError} (h : bracketClass negated members = .error error) :
    Pattern.read (bracketRegex negated members) = .error error := by
  have hread : readBracket negated members = .error error := by
    rw [← error?_eq_some_iff, ← error?_map NestedClass.set]
    exact error?_eq_some_iff.2 h
  rw [Pattern.read_of_alters (alters_bracketRegex negated hne []), hread]
  rfl

/-- **What brackets with plain and escaped members match.** They always have a regular expression,
which tells nothing of the way in which the members were written. It matches, as a whole, just the
texts of one character in the class that its members are read as, if they are read as one.

This is the set of the members, or its complement if there is a sign for that, if minus signs are at
the ends of the members only. A minus sign anywhere else is read as the sign of a range or of a
difference, also where the pattern has a backslash in front of it. -/
theorem toRegex_bracketPattern {sign : Option Char} {members : List Member}
    (hsign : ∀ c ∈ sign, c = '!' ∨ c = '^') (hne : members ≠ [])
    (hfirst : sign = none → (spell members).head? ≠ some '!' ∧ (spell members).head? ≠ some '^') :
    let chars := members.map Member.char
    let regex := bracketRegex sign.isSome chars
    toRegex (bracketPattern sign members) = .ok (String.ofList regex) ∧
      (match bracketClass sign.isSome chars with
        | .ok set => MatchesJust regex (Texts.oneOf (set.contains ·))
        | .error error => Pattern.read regex = .error error) ∧
      (SignsAtEnds chars →
        MatchesJust regex (Texts.oneOf fun c => if sign.isSome then c ∉ chars else c ∈ chars)) := by
  intro chars regex
  have hchars : chars ≠ [] := by simpa [chars] using hne
  refine ⟨toRegex_bracketPattern_eq hsign hne hfirst, ?_, fun hsigns => ?_⟩
  · split
    next set hset => exact matchesJust_bracketRegex hchars hset fun c => Iff.rfl
    next error herror => exact read_bracketRegex_of_error hchars herror
  · obtain ⟨set, hset, hmem⟩ := contains_bracketClass hsigns sign.isSome
    exact matchesJust_bracketRegex hchars hset hmem

/-- An escaped minus sign between two letters makes a range: a letter in between is matched and the
minus sign is not. At the start of negated brackets it is a member like the others. -/
theorem toRegex_bracketPattern_escaped :
    (toRegex "[a\\-z]" = .ok "[a-z]" ∧ ∃ L : Language Char,
      MatchesJust "[a-z]".toList L ∧ ['m'] ∈ L ∧ ['-'] ∉ L) ∧
    toRegex "[!\\-^\\]]" = .ok "[^-\\^\\]]" ∧
      MatchesJust "[^-\\^\\]]".toList (Texts.oneOf (· ∉ ['-', '^', ']'])) := by
  obtain ⟨hregex, hclass, -⟩ := @toRegex_bracketPattern none
    [.plain 'a' rfl, .escaped '-', .plain 'z' rfl] (by simp) (by simp)
    (fun _ => ⟨by decide, by decide⟩)
  obtain ⟨hnegated, -, hmembers⟩ := @toRegex_bracketPattern (some '!')
    [.escaped '-', .plain '^' rfl, .escaped ']'] (by simp) (by simp) (by simp)
  refine ⟨⟨hregex, _, hclass, ⟨'m', rfl, rfl⟩, ?_⟩, hnegated, hmembers (by decide)⟩
  rintro ⟨c, hc, h⟩
  cases h
  cases hc

end GlobTree.Extglob
