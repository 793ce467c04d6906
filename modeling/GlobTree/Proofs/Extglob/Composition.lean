import GlobTree.Proofs.Extglob.Lookahead
import GlobTree.Proofs.Extglob.Translation
import GlobTree.Proofs.Parser.Groups
import GlobTree.Proofs.Parser.Nested
/-!
# Patterns made of patterns

A pattern that has a regular expression leaves no group open, and so it can stand in the middle of
another pattern: there it is cut as it was, it makes the same trees, and these have the same
translation.

* `Leads` says where a text leads in a tree, wherever in a text it stands. A composed pattern is
  followed part by part (`Leads.trans`), and a part that has a regular expression leads to trees of
  its own (`leads_within`, `exists_leads_of_toRegex`).
* `translate_append` and `translate_group` translate part by part, and `translate_map_unplaced` says
  that the places of the parts make no difference.
* `toRegex_compose` puts patterns together with a slash and as alternatives.
-/

namespace GlobTree.Extglob

open Draft

/-! ## Where a text leads -/

/-- Scans a text in strict mode. -/
abbrev scanFrom (draft : Draft Kind) (place : Location) (text : List Char) :
    Except (ParseError Kind) (Draft Kind × Location) :=
  draft.scan (fun innermost c cs => some (cut innermost c cs)) (.withStrict {} true) place text

/-- Where a tree stands at one place, a text before a rest leads to another place. -/
def Leads (text rest : List Char) (start stop : Zipper (Entry Kind)) : Prop :=
  ∀ draft place, draft.zipper.map Entry.unplaced = start →
    ∃ next after, next.zipper.map Entry.unplaced = stop ∧
      scanFrom draft place (text ++ rest) = scanFrom next after rest

/-- **One text after the other.** -/
theorem Leads.trans {first second rest : List Char} {start middle stop : Zipper (Entry Kind)}
    (h₁ : Leads first (second ++ rest) start middle) (h₂ : Leads second rest middle stop) :
    Leads (first ++ second) rest start stop := by
  intro draft place hdraft
  obtain ⟨between, at₁, hbetween, hfirst⟩ := h₁ draft place hdraft
  obtain ⟨next, at₂, hnext, hsecond⟩ := h₂ between at₁ hbetween
  exact ⟨next, at₂, hnext, by rw [List.append_assoc, hfirst, hsecond]⟩

/-- A single piece. -/
theorem leads_piece (start : Zipper (Entry Kind)) (c : Char) (cs rest : List Char) {use : Use Kind}
    (hcut : cut (innermostOf start) c (cs ++ rest) = (use, cs.length))
    (admits : Admits (innermostOf start) use) :
    Leads (c :: cs) rest start (grow start use (c :: cs)) := by
  rintro draft place rfl
  rw [← innermost?_eq] at hcut admits
  obtain ⟨next, hput⟩ := exists_put admits (.withStrict {} true) place (c :: cs)
  refine ⟨next, place.advance (c :: cs), map_zipper_of_put hput, ?_⟩
  have hput' : draft.put (.withStrict {} true) place use (c :: (cs ++ rest).take cs.length) =
      .ok next := by
    rwa [List.take_left]
  rw [List.cons_append, scanFrom, scan_cons (congrArg some hcut) hput', List.drop_left,
    List.take_left]

/-- A zipper within another one has its own innermost group, or that of the other one. -/
theorem innermostOf_within (zipper around : Zipper (Entry Kind)) :
    innermostOf (zipper.within around) = innermostOf zipper ∨
      innermostOf zipper = none ∧ innermostOf (zipper.within around) = innermostOf around := by
  by_cases houter : zipper.outer = []
  · refine .inr ⟨by rw [innermostOf, houter]; rfl, ?_⟩
    rw [Zipper.within_of_nil around houter]
    rfl
  · exact .inl (by rw [innermostOf, Zipper.above?_within around houter, ← innermostOf])

/-- The piece that a pattern begins with is the same where the pattern stands in another one, and it
grows the whole as it grows the pattern's own tree. -/
theorem cut_within {own : Zipper (Entry Kind)} {c : Char} {cs rest : List Char} {use : Use Kind}
    {more : Nat} (around : Zipper (Entry Kind)) (houtside : innermostOf around ≠ some .bracket)
    (separate : Separate (c :: cs) rest) (hcut : cut (innermostOf own) c cs = (use, more))
    (admits : Admits (innermostOf own) use)
    (hinside : innermostOf own = some .bracket → c ≠ ']' → cs.drop more ≠ []) :
    cut (innermostOf (own.within around)) c (cs ++ rest) = (use, more) ∧
      Admits (innermostOf (own.within around)) use := by
  have happend : cut (innermostOf own) c (cs ++ rest) = (use, more) := by
    rw [cut_append separate (by rwa [hcut]), hcut]
  rcases innermostOf_within own around with hsame | ⟨hnone, hother⟩
  · rw [hsame]
    exact ⟨happend, admits⟩
  · rw [hnone] at happend admits
    rw [hother]
    cases use with
    | token kind complaint =>
      obtain rfl : complaint = none := admits
      exact ⟨cut_of_outside houtside (by simp) happend, rfl⟩
    | opening kind lead => exact ⟨cut_of_outside houtside (by simp) happend, trivial⟩
    | closing kind trail => cases admits

/-- Text in brackets does not end with the text, if no group is open at the end. -/
theorem drop_ne_nil_of_closed {own next last : Draft Kind} {place there stop : Location} {c : Char}
    {cs : List Char} {use : Use Kind} {more : Nat} (closed : last.zipper.outer = [])
    (hcut : cut own.innermost? c cs = (use, more))
    (hput : own.put (.withStrict {} true) place use (c :: cs.take more) = .ok next)
    (hscan : scanFrom next there (cs.drop more) = .ok (last, stop))
    (hinside : own.innermost? = some .bracket) (hend : c ≠ ']') : cs.drop more ≠ [] := by
  intro hnil
  rw [hinside] at hcut
  obtain ⟨kind, rfl⟩ := exists_token_of_cut_bracket hend hcut
  rw [hnil, scanFrom, Draft.scan] at hscan
  obtain ⟨rfl, rfl⟩ := Prod.mk.inj (Except.ok.inj hscan)
  have houter : own.zipper.outer = [] := by
    rw [zipper_of_put_token hput] at closed
    exact closed
  rw [innermost?, houter] at hinside
  cases hinside

/-- **A text makes its own trees wherever it stands**, if it leaves no group open when it stands
alone and does not wait for what comes after it. -/
theorem leads_within {text rest : List Char} {last : Draft Kind} {stop : Location}
    (hscan : scanFrom {} .start text = .ok (last, stop)) (closed : last.zipper.outer = [])
    (separate : Separate text rest) {around : Zipper (Entry Kind)}
    (houtside : innermostOf around ≠ some .bracket) :
    Leads text rest around ((last.zipper.map Entry.unplaced).within around) := by
  rintro draft place rfl
  -- Along the scan of the text alone, the whole is kept in step: its tree is the text's own tree at
  -- the place where the text began.
  let InStep (own : Draft Kind) (at_ : Location) (left : List Char) : Prop :=
    scanFrom own at_ left = .ok (last, stop) ∧ Separate left rest ∧ ∃ whole there,
      whole.zipper.map Entry.unplaced =
        (own.zipper.map Entry.unplaced).within (draft.zipper.map Entry.unplaced) ∧
      scanFrom draft place (text ++ rest) = scanFrom whole there (left ++ rest)
  have hstart : InStep {} .start text :=
    ⟨hscan, separate, draft, place, (Zipper.empty_within _).symm, rfl⟩
  have hend : InStep last stop [] := by
    refine Draft.scan_induction (P := InStep) ?_ hstart hscan
    rintro own next there c cs use more ⟨hleft, hseparate, whole, at_, hwhole, hsame⟩ hcut hput
    have hpiece := Option.some.inj hcut
    obtain ⟨hdrop, htaken, hleftover⟩ := hseparate.drop hpiece
    have hnext : scanFrom next (there.advance (c :: cs.take more)) (cs.drop more) =
        .ok (last, stop) := by
      rw [← hleft]
      exact (scan_cons hcut hput).symm
    have hinside := drop_ne_nil_of_closed closed hpiece hput hnext
    have hadmits := admits_of_put rfl hput
    rw [innermost?_eq] at hpiece hadmits hinside
    obtain ⟨hcut', hadmits'⟩ := cut_within _ houtside hseparate hpiece hadmits hinside
    rw [← hwhole, ← innermost?_eq] at hcut' hadmits'
    obtain ⟨whole', hput'⟩ := exists_put hadmits' (.withStrict {} true) at_ (c :: cs.take more)
    refine ⟨hnext, hdrop, whole', at_.advance (c :: cs.take more), ?_, ?_⟩
    · rw [map_zipper_of_put hput', map_zipper_of_put hput, grow_within hadmits, hwhole]
    · rw [hsame, List.cons_append, scanFrom]
      rw [← htaken] at hput'
      rw [scan_cons (congrArg some hcut') hput', htaken, hleftover]
  obtain ⟨-, -, whole, there, hwhole, hsame⟩ := hend
  exact ⟨whole, there, hwhole, hsame⟩

/-! ## Translations of parts -/

/-- A refusal without its place. -/
def Refusal.unplaced : Refusal → Refusal
  | unclosed kind _ => unclosed kind (.point .start "")
  | inexpressible sign _ => inexpressible sign (.point .start "")
  | emptyBracket _ => emptyBracket (.point .start "")
  | unexpected role _ => unexpected role (.point .start "")

theorem map_mapError {α β : Type} (f : α → β) (contents : Except Refusal α) :
    (contents.mapError Refusal.unplaced).map f = (contents.map f).mapError Refusal.unplaced := by
  cases contents <;> rfl

theorem groupRegex_unplaced (entry : Entry Kind) (kind : Kind) (roots : List (Entry Kind))
    (contents : Except Refusal (List Char)) :
    groupRegex entry.unplaced kind (roots.map Entry.unplaced) (contents.mapError Refusal.unplaced) =
      (groupRegex entry kind roots contents).mapError Refusal.unplaced := by
  have hall : (roots.map Entry.unplaced).all (·.role.isDelimiter) =
      roots.all (·.role.isDelimiter) := List.all_map
  have hlead : entry.unplaced.lead = entry.lead := rfl
  unfold groupRegex
  rw [hall, hlead]
  cases kind with
  | bracket =>
    dsimp only
    split
    · rfl
    · exact map_mapError _ contents
  | paren =>
    dsimp only
    split
    · rfl
    · exact map_mapError _ contents
  | _ => exact map_mapError _ contents

theorem treeRegex_unplaced (inside : Option Kind) (entry : Entry Kind) (roots : List (Entry Kind))
    (contents : Kind → Except Refusal (List Char)) :
    treeRegex inside entry.unplaced (roots.map Entry.unplaced)
        (fun kind => (contents kind).mapError Refusal.unplaced) =
      (treeRegex inside entry roots contents).mapError Refusal.unplaced := by
  have hrole : entry.unplaced.role = entry.role := rfl
  have hraw : entry.unplaced.raw = entry.raw := rfl
  have hlast : (roots.map Entry.unplaced).getLast?.map (·.role) = roots.getLast?.map (·.role) := by
    rw [List.getLast?_map, Option.map_map]
    rfl
  unfold treeRegex
  rw [hrole, hraw, hlast]
  cases entry.role with
  | token kind =>
    dsimp only
    split <;> rfl
  | group kind =>
    dsimp only
    split
    · rfl
    · split
      · exact groupRegex_unplaced entry kind roots (contents kind)
      · rfl
  | _ => rfl

/-- **Places make no difference to a translation**, apart from the place of a refusal. -/
theorem translate_map_unplaced (inside : Option Kind) (f : Forest (Entry Kind)) :
    translate inside (f.map Entry.unplaced) =
      (translate inside f).mapError Refusal.unplaced := by
  induction f generalizing inside with
  | nil => rfl
  | cons entry below rest ihb ihr =>
    rw [Forest.map, translate, translate, Forest.roots_map, ihr]
    simp only [ihb, treeRegex_unplaced]
    cases treeRegex inside entry below.roots fun kind => translate (some kind) below with
    | error refusal => rfl
    | ok first => cases translate inside rest <;> rfl

theorem translate_map_unplaced_eq_ok {inside : Option Kind} {f : Forest (Entry Kind)}
    {text : List Char} :
    translate inside (f.map Entry.unplaced) = .ok text ↔ translate inside f = .ok text := by
  rw [translate_map_unplaced]
  cases translate inside f <;> simp [Except.mapError]

/-- **One tree after the other.** -/
theorem translate_append (inside : Option Kind) (f g : Forest (Entry Kind)) :
    translate inside (f ++ g) = (do return (← translate inside f) ++ (← translate inside g)) := by
  induction f with
  | nil =>
    rw [Forest.nil_append, translate]
    cases translate inside g <;> rfl
  | cons entry below rest _ ih =>
    rw [Forest.cons_append, translate, translate, ih]
    cases treeRegex inside entry below.roots fun kind => translate (some kind) below with
    | error refusal => rfl
    | ok first =>
      cases translate inside rest with
      | error refusal => rfl
      | ok others =>
        cases translate inside g with
        | error refusal => rfl
        | ok more => exact congrArg Except.ok (List.append_assoc first others more).symm

theorem translate_append_eq_ok {inside : Option Kind} {f g : Forest (Entry Kind)}
    {a b : List Char} (hf : translate inside f = .ok a) (hg : translate inside g = .ok b) :
    translate inside (f ++ g) = .ok (a ++ b) := by
  rw [translate_append, hf, hg]
  rfl

/-- In parentheses, everything is translated as at the top. -/
theorem translate_paren (f : Forest (Entry Kind)) :
    translate (some .paren) f = translate none f := by
  induction f with
  | nil => rfl
  | cons entry below rest _ ih =>
    rw [translate, translate, ih]
    rfl

theorem translate_group {lead : Option String} {quantifier : String}
    (hlead : quantifier? lead = some quantifier) {below : Forest (Entry Kind)} {text : List Char}
    (hlast : below.roots.getLast?.map (·.role) = some (.closing .paren))
    (hbelow : translate (some .paren) below = .ok text) :
    translate none (.cons (bare (.group .paren) [] lead) below .nil) =
      .ok (['(', '?', ':'] ++ (text ++ ([')'] ++ quantifier.toList))) := by
  have htree : treeRegex none (bare (.group .paren) [] lead) below.roots
      (fun kind => translate (some kind) below) =
        .ok (['(', '?', ':'] ++ (text ++ ([')'] ++ quantifier.toList))) := by
    have hrole : (bare (Role.group Kind.paren) [] lead).role = .group .paren := rfl
    have hsame : (bare (Role.group Kind.paren) [] lead).lead = lead := rfl
    rw [treeRegex, hrole]
    simp only [hlast, if_true, groupRegex, hsame, hlead, hbelow]
    rfl
  rw [translate, htree]
  exact congrArg Except.ok (List.append_nil _)

/-! ## From a pattern to its regular expression -/

/-- The end of a text has an empty translation. -/
theorem translate_eos (f : Forest (Entry Kind)) (span : Span) :
    translate none (f ++ .leaf ⟨.eos, "", none, none, span⟩) = translate none f := by
  rw [translate_append]
  cases translate none f with
  | error refusal => rfl
  | ok text => exact congrArg Except.ok (List.append_nil text)

/-- The regular expression of a pattern is the translation of what is read. -/
theorem toRegex_eq_ok_iff_read {pattern regex : String} :
    toRegex pattern = .ok regex ↔ ∃ content,
      Draft.read (fun innermost c cs => some (cut innermost c cs)) (.withStrict {} true)
        pattern.toList = .ok content ∧ translate none content.forest = .ok regex.toList := by
  have hobeys : Obeys (parser (ParserOptions.withStrict {} true)).handlers.toList
    (fun innermost c cs => some (cut innermost c cs)) (Linked Fits) := obeys_cut
  have hparse := Parser.parse_of_fresh hobeys (linked_empty Fits) rfl rfl pattern
  rw [toRegex_eq, parse]
  cases hread : Draft.read (fun innermost c cs => some (cut innermost c cs)) (.withStrict {} true)
      pattern.toList with
  | error error =>
    rw [hread] at hparse
    rw [hparse]
    simp [Except.mapError, Except.bind]
  | ok content =>
    rw [hread] at hparse
    obtain ⟨document, hdocument, hsays⟩ := hparse
    have hforest : document.toArena.forest = content.forest :=
      congrArg Content.forest hsays.content_eq
    rw [hdocument]
    simp only [Except.mapError, Except.bind, hforest, Except.ok.injEq, exists_eq_left']
    cases translate none content.forest with
    | error refusal => simp [Except.map]
    | ok text => simp [Except.map, ← String.toList_inj]

/-- **A pattern has a regular expression** if and only if it leaves no group open and its trees have a
translation. -/
theorem toRegex_eq_ok_iff {pattern regex : String} :
    toRegex pattern = .ok regex ↔ ∃ draft stop,
      scanFrom {} .start pattern.toList = .ok (draft, stop) ∧ draft.zipper.outer = [] ∧
        translate none draft.zipper.inner = .ok regex.toList := by
  rw [toRegex_eq_ok_iff_read]
  constructor
  · rintro ⟨content, hread, htranslate⟩
    obtain ⟨draft, stop, hscan, houter, rfl⟩ := (read_eq_ok_iff rfl).1 hread
    rw [translate_eos] at htranslate
    exact ⟨draft, stop, hscan, houter, htranslate⟩
  · rintro ⟨draft, stop, hscan, houter, htranslate⟩
    refine ⟨_, (read_eq_ok_iff rfl).2 ⟨draft, stop, hscan, houter, rfl⟩, ?_⟩
    rwa [translate_eos]

/-- **A pattern with a regular expression leads to trees that have it as their translation**,
wherever the pattern stands. -/
theorem exists_leads_of_toRegex {pattern regex : String} (h : toRegex pattern = .ok regex) :
    ∃ f, translate none f = .ok regex.toList ∧ ∀ around rest, Separate pattern.toList rest →
      innermostOf around ≠ some .bracket →
        Leads pattern.toList rest around ⟨around.outer, around.inner ++ f⟩ := by
  obtain ⟨draft, stop, hscan, houter, htranslate⟩ := toRegex_eq_ok_iff.1 h
  refine ⟨draft.zipper.inner.map Entry.unplaced, translate_map_unplaced_eq_ok.2 htranslate, ?_⟩
  intro around rest separate houtside
  have hleads := leads_within hscan houter separate houtside
  have hnone : (draft.zipper.map Entry.unplaced).outer = [] := by rw [Zipper.map, houter]; rfl
  rwa [Zipper.within_of_nil around hnone] at hleads

/-- A pattern that leads to trees with a translation has this as its regular expression. -/
theorem toRegex_of_leads {pattern : String} {f : Forest (Entry Kind)} {text : List Char}
    (hleads : Leads pattern.toList [] {} ⟨[], f⟩) (htranslate : translate none f = .ok text) :
    toRegex pattern = .ok (String.ofList text) := by
  obtain ⟨draft, stop, hdraft, hscan⟩ := hleads {} .start rfl
  obtain ⟨hnone, rfl⟩ := Zipper.mk.inj hdraft
  have hend : scanFrom draft stop [] = .ok (draft, stop) := by rw [scanFrom, Draft.scan]
  rw [List.append_nil, hend] at hscan
  refine toRegex_eq_ok_iff.2 ⟨draft, stop, hscan, List.map_eq_nil_iff.1 hnone, ?_⟩
  rwa [String.toList_ofList, ← translate_map_unplaced_eq_ok]

/-! ## Composed patterns -/

/-- The opening parenthesis of a group, after a sign that has a repetition sign. -/
theorem leads_opening {c : Char} {cs rest : List Char} {lead : Option String}
    (hcut : cut none c (cs ++ rest) = (.opening .paren lead, cs.length)) :
    Leads (c :: cs) rest {} ⟨[⟨bare (.group .paren) [] lead, .nil⟩],
      .leaf (bare (.opening .paren) (c :: cs))⟩ :=
  leads_piece {} c cs rest hcut trivial

/-- What repeats a group with a sign in front. -/
def repetition (sign : String) : String := if sign ∈ ["?", "*", "+"] then sign else ""

theorem exists_leads_opening {sign : String} (hsign : sign ∈ ["", "@", "?", "*", "+"]) :
    ∃ lead raw, quantifier? lead = some (repetition sign) ∧ ∀ rest,
      Leads (sign ++ "(").toList rest {}
        ⟨[⟨bare (.group .paren) [] lead, .nil⟩], .leaf (bare (.opening .paren) raw)⟩ := by
  simp only [List.mem_cons, List.not_mem_nil, or_false] at hsign
  rcases hsign with rfl | rfl | rfl | rfl | rfl
  · exact ⟨none, ['('], rfl, fun rest => leads_opening rfl⟩
  · exact ⟨some "@", ['@', '('], rfl, fun rest => leads_opening rfl⟩
  · exact ⟨some "?", ['?', '('], rfl, fun rest => leads_opening rfl⟩
  · exact ⟨some "*", ['*', '('], rfl, fun rest => leads_opening rfl⟩
  · exact ⟨some "+", ['+', '('], rfl, fun rest => leads_opening rfl⟩

/-- The trees of two alternatives in parentheses. -/
def inParentheses (lead : Option String) (raw : List Char) (f g : Forest (Entry Kind)) :
    Forest (Entry Kind) :=
  .cons (bare (.group .paren) [] lead)
    (.leaf (bare (.opening .paren) raw) ++ f ++ .leaf (bare (.token .pipe) ['|']) ++ g ++
      .leaf (bare (.closing .paren) [')'])) .nil

theorem translate_inParentheses {lead : Option String} {quantifier : String}
    (hlead : quantifier? lead = some quantifier) (raw : List Char) {f g : Forest (Entry Kind)}
    {a b : List Char} (hf : translate none f = .ok a) (hg : translate none g = .ok b) :
    translate none (inParentheses lead raw f g) =
      .ok (['(', '?', ':'] ++ (a ++ ['|'] ++ b ++ ([')'] ++ quantifier.toList))) := by
  refine translate_group hlead ?_ ?_
  · rw [Forest.roots_append, List.getLast?_append]
    rfl
  · rw [translate_paren]
    have hopening : translate none (.leaf (bare (.opening .paren) raw)) = .ok [] := rfl
    have hbar : translate none (.leaf (bare (.token .pipe) ['|'])) = .ok ['|'] := rfl
    have hclosing : translate none (.leaf (bare (.closing .paren) [')'])) = .ok [] := rfl
    have h := translate_append_eq_ok (translate_append_eq_ok (translate_append_eq_ok
      (translate_append_eq_ok hopening hf) hbar) hg) hclosing
    rwa [List.nil_append, List.append_nil] at h

/-- Two patterns with a slash between them. -/
theorem toRegex_slash {p q r s : String} (hp : toRegex p = .ok r) (hq : toRegex q = .ok s)
    (closed : ClosedOff p.toList) : toRegex (p ++ "/" ++ q) = .ok (r ++ "/" ++ s) := by
  obtain ⟨f, hf, hfirst⟩ := exists_leads_of_toRegex hp
  obtain ⟨g, hg, hsecond⟩ := exists_leads_of_toRegex hq
  let slash : Forest (Entry Kind) := .leaf (bare (.token .slash) ['/'])
  have h₁ : Leads p.toList (['/'] ++ (q.toList ++ [])) {} ⟨[], f⟩ :=
    hfirst {} _ (.inr ⟨closed, '/', _, rfl, rfl⟩) (by simp [innermostOf, Zipper.above?])
  have hcut : cut none '/' (q.toList ++ []) = (.token .slash none, 0) := rfl
  have h₂ : Leads ['/'] (q.toList ++ []) ⟨[], f⟩ ⟨[], f ++ slash⟩ :=
    leads_piece ⟨[], f⟩ '/' [] _ hcut rfl
  have h₃ : Leads q.toList [] ⟨[], f ++ slash⟩ ⟨[], f ++ slash ++ g⟩ :=
    hsecond ⟨[], f ++ slash⟩ [] (.inl rfl) (by simp [innermostOf, Zipper.above?])
  have htext : p.toList ++ ['/'] ++ q.toList = (p ++ "/" ++ q).toList := by simp
  have hleads : Leads (p ++ "/" ++ q).toList [] {} ⟨[], f ++ slash ++ g⟩ := by
    rw [← htext]
    exact (h₁.trans h₂).trans h₃
  have hslash : translate none slash = .ok ['/'] := rfl
  rw [toRegex_of_leads hleads (translate_append_eq_ok (translate_append_eq_ok hf hslash) hg),
    Except.ok.injEq, ← String.toList_inj]
  simp

/-- Two patterns as alternatives in parentheses. -/
theorem toRegex_paren {p q r s : String} (hp : toRegex p = .ok r) (hq : toRegex q = .ok s)
    (hclosed : ClosedOff p.toList) (hclosed' : ClosedOff q.toList) {sign : String}
    (hsign : sign ∈ ["", "@", "?", "*", "+"]) :
    toRegex (sign ++ "(" ++ p ++ "|" ++ q ++ ")") =
      .ok ("(?:" ++ r ++ "|" ++ s ++ ")" ++ repetition sign) := by
  obtain ⟨f, hf, hfirst⟩ := exists_leads_of_toRegex hp
  obtain ⟨g, hg, hsecond⟩ := exists_leads_of_toRegex hq
  obtain ⟨lead, raw, hlead, hopening⟩ := exists_leads_opening hsign
  -- The place is below the group until its closing parenthesis is read.
  let inGroup (inner : Forest (Entry Kind)) : Zipper (Entry Kind) :=
    ⟨[⟨bare (.group .paren) [] lead, .nil⟩], inner⟩
  have houtside (inner : Forest (Entry Kind)) : innermostOf (inGroup inner) ≠ some .bracket := by
    simp [innermostOf, Zipper.above?, inGroup, bare, Role.kind?]
  let opening : Forest (Entry Kind) := .leaf (bare (.opening .paren) raw)
  let bar : Forest (Entry Kind) := .leaf (bare (.token .pipe) ['|'])
  have h₁ : Leads (sign ++ "(").toList (p.toList ++ (['|'] ++ (q.toList ++ ([')'] ++ [])))) {}
      (inGroup opening) := hopening _
  have h₂ : Leads p.toList (['|'] ++ (q.toList ++ ([')'] ++ []))) (inGroup opening)
      (inGroup (opening ++ f)) := hfirst _ _ (.inr ⟨hclosed, '|', _, rfl, rfl⟩) (houtside _)
  have hbar : cut (some .paren) '|' (q.toList ++ ([')'] ++ [])) = (.token .pipe none, 0) := rfl
  have h₃ : Leads ['|'] (q.toList ++ ([')'] ++ [])) (inGroup (opening ++ f))
      (inGroup (opening ++ f ++ bar)) := leads_piece (inGroup (opening ++ f)) '|' [] _ hbar rfl
  have h₄ : Leads q.toList ([')'] ++ []) (inGroup (opening ++ f ++ bar))
      (inGroup (opening ++ f ++ bar ++ g)) :=
    hsecond _ _ (.inr ⟨hclosed', ')', _, rfl, rfl⟩) (houtside _)
  have hend : cut (some .paren) ')' [] = (.closing .paren none, 0) := rfl
  have h₅ : Leads [')'] [] (inGroup (opening ++ f ++ bar ++ g)) ⟨[], inParentheses lead raw f g⟩ :=
    leads_piece (inGroup (opening ++ f ++ bar ++ g)) ')' [] [] hend rfl
  have htext : (sign ++ "(").toList ++ p.toList ++ ['|'] ++ q.toList ++ [')'] =
      (sign ++ "(" ++ p ++ "|" ++ q ++ ")").toList := by simp
  have hleads : Leads (sign ++ "(" ++ p ++ "|" ++ q ++ ")").toList [] {}
      ⟨[], inParentheses lead raw f g⟩ := by
    rw [← htext]
    exact (((h₁.trans h₂).trans h₃).trans h₄).trans h₅
  rw [toRegex_of_leads hleads (translate_inParentheses hlead raw hf hg), Except.ok.injEq,
    ← String.toList_inj]
  simp

/-- **Translating patterns is compositional.** Two patterns that have a regular expression each can be
put together with a slash, and as alternatives in parentheses with a sign in front that is not a
negation, if the earlier ones are closed off. -/
theorem toRegex_compose {p q r s : String} (hp : toRegex p = .ok r) (hq : toRegex q = .ok s)
    (hclosed : ClosedOff p.toList) :
    toRegex (p ++ "/" ++ q) = .ok (r ++ "/" ++ s) ∧
      (ClosedOff q.toList → ∀ sign ∈ ["", "@", "?", "*", "+"],
        toRegex (sign ++ "(" ++ p ++ "|" ++ q ++ ")") =
          .ok ("(?:" ++ r ++ "|" ++ s ++ ")" ++ repetition sign)) :=
  ⟨toRegex_slash hp hq hclosed, fun hclosed' _ hsign => toRegex_paren hp hq hclosed hclosed' hsign⟩

/-- A pattern that ends in an escaped backslash, and one that ends in a sign. -/
theorem toRegex_compose_escaped :
    ClosedOff "\x7ba,*\x7d[!x\\]]\\\\".toList ∧
      toRegex ("\x7ba,*\x7d[!x\\]]\\\\" ++ "/" ++ "**@") =
        .ok ("(?:a|[^/]*)[^x\\]]\\\\" ++ "/" ++ ".*@") ∧
      toRegex ("*" ++ "(" ++ "\x7ba,*\x7d[!x\\]]\\\\" ++ "|" ++ "**@" ++ ")") =
        .ok ("(?:" ++ "(?:a|[^/]*)[^x\\]]\\\\" ++ "|" ++ ".*@" ++ ")" ++ "*") := by
  have hp : toRegex "\x7ba,*\x7d[!x\\]]\\\\" = .ok "(?:a|[^/]*)[^x\\]]\\\\" := by
    decide +kernel
  have hq : toRegex "**@" = .ok ".*@" := by decide +kernel
  have hclosed : ClosedOff "\x7ba,*\x7d[!x\\]]\\\\".toList := by decide
  obtain ⟨hslash, hparen⟩ := toRegex_compose hp hq hclosed
  exact ⟨hclosed, hslash, hparen (by decide) "*" (by simp)⟩

end GlobTree.Extglob
