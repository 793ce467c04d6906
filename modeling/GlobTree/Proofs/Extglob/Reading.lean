import GlobTree.Proofs.Extglob.Brackets
import GlobTree.Proofs.Extglob.Translation
/-!
# Reading the translation of a pattern

The regular expression of a pattern is a text, and what it means is decided when that text is read.
`readForest` goes through the trees of a pattern and does to an alternation what reading their
translations does, which `alters_translate` proves: no sign that is written for one tree is taken
for part of another.

All that can be wrong with the text are the ranges in brackets. A pattern that has a regular
expression has one that can be read if and only if all ranges in it are ordered.
-/

namespace GlobTree.Extglob

/-! ## The trees as they are read -/

/-- The characters between brackets, as far as they are members. -/
def members (roots : List (Entry Kind)) : List Char :=
  roots.flatMap fun entry =>
    match entry.role with
    | .token kind => literal kind entry.raw.toList
    | _ => []

/-- Any character but a slash. -/
def notSlash : CharClass := .compl (.unions [.single '/'])

/-- Reads a token. -/
def readToken (inside : Option Kind) (kind : Kind) (raw : List Char) (branch : Branch) : Branch :=
  match kind with
  | .star => branch.add (.times 0 none true (.one notSlash)) 2
  | .globstar => branch.add (.times 0 none true (.one .notNewline)) 1
  | .qmark => branch.add (.one notSlash) 1
  | .slash => branch.add (.one (.single '/'))
  | .pipe => branch.next
  | .comma => if inside = some .brace then branch.next else branch.add (.one (.single ','))
  | .text | .escape | .quoted => Alters.addText (literal kind raw) branch
  | .paren | .brace | .bracket => branch

/-- A pattern with the repetition that a sign in front of a group stands for. -/
def quantified (lead : Option String) (p : Pattern) : Pattern :=
  match lead with
  | some "?" => .times 0 (some 1) true p
  | some "*" => .times 0 none true p
  | some "+" => .times 1 none true p
  | _ => p

/-- How deep a group in parentheses is nested with the sign in front of it, which is a level if it
stands for a repetition. -/
def quantifiedDepth (lead : Option String) (depth : Nat) : Nat :=
  match lead with
  | some "?" | some "*" | some "+" => depth + 1
  | _ => depth

/-- Reads a tree. -/
def readTree (inside : Option Kind) (entry : Entry Kind) (roots : List (Entry Kind))
    (contents : Kind → Branch → Except SyntaxError Branch) (branch : Branch) :
    Except SyntaxError Branch :=
  match entry.role with
  | .token kind => .ok (readToken inside kind entry.raw.toList branch)
  | .group .bracket =>
    (readBracket entry.lead.isSome (members roots)).map fun read =>
      branch.add (.one read.set) read.depth
  | .group .paren =>
    (contents .paren {}).map fun inner =>
      branch.add (quantified entry.lead inner.whole)
        (quantifiedDepth entry.lead (inner.depth + 1))
  | .group kind =>
    (contents kind {}).map fun inner => branch.add inner.whole (inner.depth + 1)
  | _ => .ok branch

/-- Reads the trees of a forest in a group of a kind. -/
def readForest (inside : Option Kind) : Forest (Entry Kind) → Branch → Except SyntaxError Branch
  | .nil, branch => .ok branch
  | .cons entry below rest, branch =>
    (readTree inside entry below.roots (fun kind => readForest (some kind) below) branch).bind
      (readForest inside rest)

/-! ## Their translations -/

/-- A text that comes after a repetition sign without being taken for a part of it. -/
def Apart (text : List Char) : Prop := text.head? ≠ some '?'

theorem Apart.append {a b : List Char} (ha : Apart a) (hb : Apart b) : Apart (a ++ b) := by
  cases a with
  | nil => exact hb
  | cons c cs => exact ha

theorem apart_escapeText (text : List Char) : Apart (escapeText text) := by
  cases text with
  | nil => nofun
  | cons c cs =>
    have h : escapeText (c :: cs) = (if c ∈ metaCharacters then ['\\', c] else [c]) ++ escapeText cs :=
      rfl
    rw [h]
    split
    next => simp [Apart]
    next hc =>
      have hne : c ≠ '?' := by
        rintro rfl
        exact hc (by decide)
      simpa [Apart] using hne

theorem apart_tokenRegex (inside : Option Kind) (kind : Kind) (raw : List Char) :
    Apart (tokenRegex inside kind raw) := by
  cases kind with
  | text | escape | quoted => exact apart_escapeText _
  | comma =>
    rw [tokenRegex]
    split <;> simp [Apart]
  | _ => simp [tokenRegex, Apart]

theorem apart_groupRegex {entry : Entry Kind} {kind : Kind} {roots : List (Entry Kind)}
    {contents : Except Refusal (List Char)} {text : List Char}
    (h : groupRegex entry kind roots contents = .ok text) : Apart text := by
  cases kind with
  | bracket =>
    rw [groupRegex] at h
    split at h
    next => cases h
    next =>
      obtain ⟨inner, -, rfl⟩ := map_eq_ok_iff.1 h
      split <;> simp [Apart]
  | paren =>
    rw [groupRegex] at h
    split at h
    next => cases h
    next =>
      obtain ⟨inner, -, rfl⟩ := map_eq_ok_iff.1 h
      simp [Apart]
  | _ =>
    obtain ⟨inner, -, rfl⟩ := map_eq_ok_iff.1 h
    simp [Apart]

theorem apart_treeRegex {inside : Option Kind} {entry : Entry Kind} {roots : List (Entry Kind)}
    {contents : Kind → Except Refusal (List Char)} {text : List Char}
    (outside : inside ≠ some .bracket) (h : treeRegex inside entry roots contents = .ok text) :
    Apart text := by
  rw [treeRegex] at h
  simp only [if_neg outside] at h
  split at h
  next => exact Except.ok.inj h ▸ apart_tokenRegex _ _ _
  next =>
    split at h
    next => exact apart_groupRegex h
    next => cases h
  next => exact Except.ok.inj h ▸ (by simp [Apart])

/-- **No translation starts with a question mark.** -/
theorem apart_translate {inside : Option Kind} {f : Forest (Entry Kind)} {text : List Char}
    (outside : inside ≠ some .bracket) (h : translate inside f = .ok text) : Apart text := by
  induction f generalizing text with
  | nil =>
    obtain rfl : [] = text := Except.ok.inj h
    simp [Apart]
  | cons entry below rest _ ih =>
    obtain ⟨first, others, hfirst, hothers, rfl⟩ := exists_of_translate_cons h
    exact (apart_treeRegex outside hfirst).append (ih hothers)

/-! ## Reading the translations -/

section Alters

variable {inside : Option Kind} {rest : List Char}

/-- Any character but a slash, as it is written. -/
theorem alters_notSlash (rest : List Char) :
    Alters ['[', '^', '/', ']'] rest fun branch => .ok (branch.add (.one notSlash) 1) := by
  have hscan (engine : Engine) : scanBracket (.plain engine) (['^', '/', ']'] ++ rest) =
    Except.map (fun read => (read, rest)) (.ok ⟨notSlash, 1⟩) := rfl
  exact Alters.bracket hscan

theorem alters_tokenRegex (kind : Kind) (raw : List Char) (hrest : Apart rest) :
    Alters (tokenRegex inside kind raw) rest fun branch => .ok (readToken inside kind raw branch) := by
  cases kind with
  | text | escape | quoted => exact Alters.escapeText _ rest
  | star =>
    have hsign : Alters ['*'] rest _ := Alters.sign rfl hrest
    exact (alters_notSlash (['*'] ++ rest)).append hsign
  | globstar =>
    have hdot : Alters ['.'] (['*'] ++ rest) _ := Alters.dot
    have hsign : Alters ['*'] rest _ := Alters.sign rfl hrest
    exact hdot.append hsign
  | qmark => exact alters_notSlash rest
  | slash => exact Alters.literal (by decide)
  | pipe => exact Alters.bar
  | comma =>
    by_cases h : inside = some .brace
    · simp only [tokenRegex, readToken, if_pos h]
      exact Alters.bar
    · simp only [tokenRegex, readToken, if_neg h]
      exact Alters.literal (by decide)
  | paren | brace | bracket => exact Alters.nil rest

/-- A group in parentheses with a repetition sign or none. -/
theorem alters_paren {lead : Option String} {quantifier : String}
    {effect : Branch → Except SyntaxError Branch} {text : List Char}
    (hquantifier : quantifier? lead = some quantifier)
    (htext : Alters text (')' :: (quantifier.toList ++ rest)) effect) (hrest : Apart rest) :
    Alters (['(', '?', ':'] ++ (text ++ ([')'] ++ quantifier.toList))) rest fun branch =>
      (effect {}).map fun inner =>
        branch.add (quantified lead inner.whole) (quantifiedDepth lead (inner.depth + 1)) := by
  have hgroup := htext.group
  have hsplit : ['(', '?', ':'] ++ (text ++ ([')'] ++ quantifier.toList)) =
      (['(', '?', ':'] ++ (text ++ [')'])) ++ quantifier.toList := by
    simp
  have hsign {c : Char} {least : Nat} {most : Option Nat}
      (hc : Alters.signCounts c = some (least, most)) (hlist : quantifier.toList = [c]) :
      Alters (['(', '?', ':'] ++ (text ++ [')']) ++ quantifier.toList) rest fun branch =>
        (effect {}).map fun inner =>
          branch.add (.times least most true inner.whole) (inner.depth + 1 + 1) := by
    have hsign : Alters [c] rest _ := Alters.sign hc hrest
    rw [hlist] at hgroup ⊢
    refine (hgroup.append hsign).congr fun branch => ?_
    cases effect {} <;> rfl
  rw [hsplit]
  unfold quantifier? at hquantifier
  split at hquantifier <;> cases hquantifier
  case h_1 | h_2 =>
    refine (hgroup.append (Alters.nil rest)).congr fun branch => ?_
    cases effect {} <;> rfl
  case h_3 | h_4 | h_5 => exact hsign rfl rfl

/-- What is in brackets is translated to its members. -/
theorem translate_members {above : Entry Kind} {f : Forest (Entry Kind)}
    (bracket : above.role = .group .bracket) (fits : f.Linked Fits (some above)) :
    translate (some .bracket) f = .ok (escapeClass (members f.roots)) := by
  induction f with
  | nil => rfl
  | cons entry below rest _ ih =>
    obtain ⟨⟨-, hrole⟩, -, hrest⟩ := fits
    have hfits := hrole ⟨above, rfl, bracket⟩
    have hmembers : members (entry :: rest.roots) = members [entry] ++ members rest.roots := by
      simp [members]
    have hfirst : treeRegex (some .bracket) entry below.roots
        (fun kind => translate (some kind) below) = .ok (escapeClass (members [entry])) := by
      simp only [List.mem_cons, List.not_mem_nil, or_false] at hfits
      rcases hfits with h | h | h | h <;> simp [treeRegex, members, h, escapeClass, backslashed]
    rw [translate, hfirst, ih hrest, Forest.roots, hmembers, escapeClass_append]
    rfl

/-- Brackets that hold something have members. -/
theorem members_ne_nil {above : Entry Kind} {f : Forest (Entry Kind)}
    (bracket : above.role = .group .bracket) (fits : f.Linked Fits (some above))
    (nonempty : ∀ entry ∈ f.preorder, ¬ entry.role.isStructural → entry.raw ≠ "")
    (holds : ¬ f.roots.all (·.role.isDelimiter)) : members f.roots ≠ [] := by
  obtain ⟨entry, hmem, hentry⟩ : ∃ entry ∈ f.roots, ¬ entry.role.isDelimiter := by
    simpa using holds
  obtain ⟨hshaped, hrole⟩ := fits.of_mem_roots entry hmem
  have hraw : ¬ entry.role.isStructural → entry.raw ≠ "" :=
    nonempty entry (Forest.mem_preorder_of_mem_roots hmem)
  have hfits := hrole ⟨above, rfl, bracket⟩
  suffices h : members [entry] ≠ [] by
    simp only [members, ne_eq, List.flatMap_eq_nil_iff, not_forall]
    exact ⟨entry, hmem, by simpa [members] using h⟩
  simp only [List.mem_cons, List.not_mem_nil, or_false] at hfits
  rcases hfits with h | h | h | h
  · rw [h] at hraw
    simpa [members, h, literal] using hraw (by simp [Role.isStructural])
  · rw [Shaped, h] at hshaped
    obtain ⟨c, hc⟩ := hshaped
    simp [members, h, hc, literal, unescape]
  · exact absurd (h ▸ rfl) hentry
  · exact absurd (h ▸ rfl) hentry

/-- A group is read with what is in it. -/
theorem alters_groupRegex {entry : Entry Kind} {kind : Kind} {below : Forest (Entry Kind)}
    {text : List Char} (hkind : entry.role = .group kind) (fits : below.Linked Fits (some entry))
    (nonempty : ∀ entry ∈ below.preorder, ¬ entry.role.isStructural → entry.raw ≠ "")
    (hbelow : kind ≠ .bracket → ∀ {inner rest : List Char},
      translate (some kind) below = .ok inner → Apart rest →
        Alters inner rest (readForest (some kind) below))
    (htext : groupRegex entry kind below.roots (translate (some kind) below) = .ok text)
    (hrest : Apart rest) :
    Alters text rest
      (readTree inside entry below.roots fun kind => readForest (some kind) below) := by
  have hclose (after : List Char) : Apart (')' :: after) := by simp [Apart]
  cases kind with
  | bracket =>
    rw [groupRegex] at htext
    split at htext
    next => cases htext
    next holds =>
      obtain ⟨inner, hinner, rfl⟩ := map_eq_ok_iff.1 htext
      rw [translate_members hkind fits] at hinner
      obtain rfl := Except.ok.inj hinner
      have hbracket := alters_bracketRegex entry.lead.isSome
        (members_ne_nil hkind fits nonempty holds) rest
      have hopen : (if entry.lead.isSome then ['[', '^'] else ['[']) ++
          (escapeClass (members below.roots) ++ [']']) =
        bracketRegex entry.lead.isSome (members below.roots) := by
        rw [bracketRegex]
        split <;> rfl
      rw [hopen]
      refine hbracket.congr fun branch => ?_
      simp only [readTree, hkind]
  | paren =>
    rw [groupRegex] at htext
    split at htext
    next => cases htext
    next quantifier hquantifier =>
      obtain ⟨inner, hinner, rfl⟩ := map_eq_ok_iff.1 htext
      have hread := hbelow (by decide) hinner (hclose (quantifier.toList ++ rest))
      refine (alters_paren hquantifier hread hrest).congr fun branch => ?_
      simp only [readTree, hkind]
  | _ =>
    obtain ⟨inner, hinner, rfl⟩ := map_eq_ok_iff.1 htext
    have hread := hbelow (by decide) hinner (hclose rest)
    refine hread.group.congr fun branch => ?_
    simp only [readTree, hkind]

/-- **The translation of a forest is read as the forest.** -/
theorem alters_translate {above : Option (Entry Kind)} {f : Forest (Entry Kind)}
    {text : List Char} (outside : inside ≠ some .bracket) (fits : f.Linked Fits above)
    (nonempty : ∀ entry ∈ f.preorder, ¬ entry.role.isStructural → entry.raw ≠ "")
    (htext : translate inside f = .ok text) (hrest : Apart rest) :
    Alters text rest (readForest inside f) := by
  induction f generalizing inside above text rest with
  | nil =>
    obtain rfl := Except.ok.inj htext
    exact (Alters.nil rest).congr fun _ => rfl
  | cons entry below others ihbelow ihothers =>
    obtain ⟨-, fbelow, fothers⟩ := fits
    obtain ⟨-, nbelow, nothers⟩ := Forest.forall_mem_preorder_cons.1 nonempty
    have hbelow (kind : Kind) (hkind : kind ≠ .bracket) {inner rest : List Char}
        (hinner : translate (some kind) below = .ok inner) (hrest : Apart rest) :
        Alters inner rest (readForest (some kind) below) :=
      ihbelow (by simpa using hkind) fbelow nbelow hinner hrest
    obtain ⟨first, following, hfirst, hfollowing, rfl⟩ := exists_of_translate_cons htext
    have happly : Apart (following ++ rest) := (apart_translate outside hfollowing).append hrest
    have hread : Alters first (following ++ rest)
        (readTree inside entry below.roots fun kind => readForest (some kind) below) := by
      rw [treeRegex] at hfirst
      simp only [if_neg outside] at hfirst
      cases hrole : entry.role with
      | token kind =>
        rw [hrole] at hfirst
        obtain rfl := Except.ok.inj hfirst
        refine (alters_tokenRegex kind _ happly).congr fun branch => ?_
        simp only [readTree, hrole]
      | group kind =>
        simp only [hrole] at hfirst
        split at hfirst
        next =>
          exact alters_groupRegex hrole fbelow nbelow (hbelow kind) hfirst happly
        next => cases hfirst
      | root | eos | opening | closing =>
        rw [hrole] at hfirst
        obtain rfl := Except.ok.inj hfirst
        refine (Alters.nil _).congr fun branch => ?_
        simp only [readTree, hrole]
    have hrests : Alters following rest (readForest inside others) :=
      ihothers outside fothers nothers hfollowing hrest
    exact (hread.append hrests).congr fun _ => rfl

end Alters

/-! ## Well-formed translations -/

/-- All ranges in the brackets of a forest are ordered. Minus signs right after the opening of
brackets belong to no range. -/
def Ordered : Forest (Entry Kind) → Bool
  | .nil => true
  | .cons entry below rest =>
    (match entry.role with
    | .group .bracket => rangesOrdered ((members below.roots).dropWhile (· = '-'))
    | .group _ => Ordered below
    | _ => true) && Ordered rest

/-- Reading comes to an end, or there is a reversed range on the way. -/
def Succeeds {α : Type} (ordered : Bool) (result : Except SyntaxError α) : Prop :=
  if ordered then ∃ value, result = .ok value else result = .error .bracketRangeReversed

theorem Succeeds.map {α β : Type} {ordered : Bool} {result : Except SyntaxError α}
    (h : Succeeds ordered result) (f : α → β) : Succeeds ordered (result.map f) := by
  cases ordered with
  | true =>
    obtain ⟨value, rfl⟩ := h
    exact ⟨f value, rfl⟩
  | false =>
    obtain rfl : result = _ := h
    rfl

theorem Succeeds.bind {α β : Type} {first second : Bool} {result : Except SyntaxError α}
    {next : α → Except SyntaxError β} (h : Succeeds first result)
    (hnext : ∀ value, Succeeds second (next value)) :
    Succeeds (first && second) (result.bind next) := by
  cases first with
  | true =>
    obtain ⟨value, rfl⟩ := h
    exact hnext value
  | false =>
    obtain rfl : result = _ := h
    rfl

theorem succeeds_readBracket (negated : Bool) (members : List Char) :
    Succeeds (rangesOrdered (members.dropWhile (· = '-'))) (readBracket negated members) :=
  Succeeds.map (readMembers_cases _ _ _) _

/-- **A forest can be read if and only if its ranges are ordered.** -/
theorem succeeds_readForest (inside : Option Kind) (f : Forest (Entry Kind)) (branch : Branch) :
    Succeeds (Ordered f) (readForest inside f branch) := by
  induction f generalizing inside branch with
  | nil => exact ⟨branch, rfl⟩
  | cons entry below rest ihbelow ihrest =>
    rw [Ordered, readForest]
    refine Succeeds.bind ?_ fun branch => ihrest inside branch
    cases hrole : entry.role with
    | token kind =>
      simp only [readTree, hrole]
      exact ⟨_, rfl⟩
    | group kind =>
      cases kind with
      | bracket =>
        simp only [readTree, hrole]
        exact (succeeds_readBracket _ _).map _
      | _ =>
        simp only [readTree, hrole]
        exact (ihbelow _ {}).map _
    | root | eos | opening | closing =>
      simp only [readTree, hrole]
      exact ⟨_, rfl⟩

/-- **When the regular expression of a pattern is one.** It can be read if and only if the ranges in
the brackets of the pattern are ordered. A minus sign between two members makes a range of them even
if the pattern has a backslash before it. Where a range is reversed, neither the regular expression
nor the rule with it can be read.

An expression that can be read is a rule in every engine that allows two levels more than it has,
for the anchor and the group around it, and finds it small enough; and in no other. -/
theorem toRegex_wellFormed {pattern regex : String} (h : toRegex pattern = .ok regex) :
    ∃ document, parse pattern (ParserOptions.withStrict {} true) = .ok document ∧
      ∀ engine : Engine,
        if Ordered document.toArena.forest then
          ∃ read, Pattern.read regex.toList engine = .ok read ∧
            Rule.read regex engine =
              if engine.nesting < read.depth + 2 then .error ⟨regex, .nestedTooDeep⟩
              else if engine.fits (Rule.anchored regex.toList) then
                .ok ⟨regex, (Pattern.seq (.assert .textStart) read.pattern).compile, []⟩
              else .error ⟨regex, .compiledTooLarge⟩
        else
          Pattern.read regex.toList engine = .error .bracketRangeReversed ∧
            Rule.read regex engine = .error ⟨regex, .bracketRangeReversed⟩ := by
  obtain ⟨document, hparse, htranslate⟩ := exists_of_toRegex h
  have parsed := parsed_of_parse hparse
  have halters (rest : List Char) (hrest : Apart rest) :
      Alters regex.toList rest (readForest none document.toArena.forest) :=
    alters_translate (by simp) parsed.fits (parsed.tiles.raw_ne_empty) htranslate hrest
  have hforest := succeeds_readForest none document.toArena.forest {}
  refine ⟨document, hparse, fun engine => ?_⟩
  rw [Pattern.read_of_alters (halters [] (by simp [Apart])),
    Rule.read_of_alters (halters [')'] (by simp [Apart]))]
  split
  next ordered =>
    rw [ordered] at hforest
    obtain ⟨branch, hbranch⟩ := hforest
    rw [hbranch]
    exact ⟨_, rfl, rfl⟩
  next reversed =>
    rw [Bool.eq_false_iff.2 reversed] at hforest
    rw [show readForest none document.toArena.forest {} = _ from hforest]
    exact ⟨rfl, rfl⟩

/-- An escaped minus sign makes a range as well, and a reversed one is no regular expression. A
group in parentheses is nested one level deep, and makes a rule of three levels. -/
theorem toRegex_wellFormed_reversed :
    (toRegex "[b\\-a]" = .ok "[b-a]" ∧
      ∀ engine, Rule.read "[b-a]" engine = .error ⟨"[b-a]", .bracketRangeReversed⟩) ∧
    toRegex "(a)" = .ok "(?:a)" ∧
      Rule.read "(?:a)" { nesting := 2 } = .error ⟨"(?:a)", .nestedTooDeep⟩ := by
  have h : toRegex "[b\\-a]" = .ok "[b-a]" := by decide +kernel
  have hgroup : toRegex "(a)" = .ok "(?:a)" := by decide +kernel
  have hreversed : (parse "[b\\-a]" (ParserOptions.withStrict {} true)).map
    (Ordered ·.toArena.forest) = .ok false := by decide +kernel
  have hordered : (parse "(a)" (ParserOptions.withStrict {} true)).map
    (Ordered ·.toArena.forest) = .ok true := by decide +kernel
  refine ⟨⟨h, fun engine => ?_⟩, hgroup, ?_⟩
  · obtain ⟨document, hparse, hread⟩ := toRegex_wellFormed h
    rw [hparse] at hreversed
    have hforest : Ordered document.toArena.forest = false := Except.ok.inj hreversed
    simp only [hforest, Bool.false_eq_true, if_false] at hread
    exact (hread engine).2
  · obtain ⟨document, hparse, hread⟩ := toRegex_wellFormed hgroup
    rw [hparse] at hordered
    have hforest : Ordered document.toArena.forest = true := Except.ok.inj hordered
    simp only [hforest, if_true] at hread
    obtain ⟨read, htext, hrule⟩ := hread { nesting := 2 }
    have hdepth : (Pattern.read "(?:a)".toList { nesting := 2 }).map (·.depth) = .ok 1 := by
      decide +kernel
    rw [htext] at hdepth
    have hone : read.depth = 1 := Except.ok.inj hdepth
    rw [hrule, hone]
    rfl

end GlobTree.Extglob
