import GlobTree.Proofs.Extglob.Reading
import GlobTree.Proofs.Regex.Searching
/-!
# What patterns mean

A pattern without brackets stands for a language, which `language` gives by recursion on its trees. The
trees of a group are split into alternatives where a token separates them, and what is in one
alternative is put one after the other.

What an escape and a quoted text stand for is said without the renderer, which takes away just the
backslashes that do not stand for themselves (`tokenLanguage_eq_just`). The regular expression of a
pattern is read as an alternation that stands for the language (`denotes_readForest`), so that it
matches just the texts in the language (`toRegex_language`).
-/

namespace GlobTree.Extglob

open scoped Computability

/-! ## The language of a pattern -/

/-- The texts that a token stands for. A bar stands for none of its own. -/
def tokenLanguage (kind : Kind) (raw : List Char) : Language Char :=
  match kind with
  | .text => Texts.just raw
  | .escape => Texts.just raw.tail
  | .quoted => {text | Quotes raw.tail.dropLast text}
  | .slash => Texts.just ['/']
  | .comma => Texts.just [',']
  | .star => Texts.allOf (· ≠ '/')
  | .qmark => Texts.oneOf (· ≠ '/')
  | .globstar => Texts.allOf (· ≠ '\n')
  | .pipe | .paren | .brace | .bracket => 1

/-- What a sign in front of parentheses makes of their contents. -/
def repeated (lead : Option String) (L : Language Char) : Language Char :=
  match lead with
  | some "?" => 1 + L
  | some "*" => L∗
  | some "+" => L * L∗
  | _ => L

/-- The texts that a tree stands for. Brackets are left out here. -/
def entryLanguage (entry : Entry Kind) (contents : Kind → Language Char) : Language Char :=
  match entry.role with
  | .token kind => tokenLanguage kind entry.raw.toList
  | .group .bracket => 0
  | .group .paren => repeated entry.lead (contents .paren)
  | .group kind => contents kind
  | _ => 1

/-- Whether a tree separates alternatives: a bar in a group, or a comma directly in braces. -/
def separates (inside : Option Kind) (entry : Entry Kind) : Bool :=
  match inside, entry.role with
  | some _, .token .pipe | some .brace, .token .comma => true
  | _, _ => false

/-- The languages of the alternatives in a group of a kind, or outside of all groups. -/
def alternatives (inside : Option Kind) : Forest (Entry Kind) → List (Language Char)
  | .nil => [1]
  | .cons entry below rest =>
    if separates inside entry then 1 :: alternatives inside rest
    else (alternatives inside rest).modifyHead
      (entryLanguage entry (fun kind => (alternatives (some kind) below).sum) * ·)

/-- The language of a pattern. Outside of groups there is just one alternative. -/
def language (forest : Forest (Entry Kind)) : Language Char := (alternatives none forest).sum

/-! ## Reading the trees -/

/-- The renderer takes the backslashes away that do not stand for themselves. -/
theorem Quotes.unescape_eq {inside text : List Char} (h : Quotes inside text) :
    unescape inside = text := by
  induction h with
  | nil => rfl
  | escaped c _ ih => rw [unescape, ih]
  | plain hc _ ih =>
    rw [unescape, ih]
    · exact fun h _ => hc h
    · exact fun _ _ h _ => hc h

/-- **The renderer writes a literal token for the text that the token stands for.** -/
theorem tokenLanguage_eq_just {entry : Entry Kind} {kind : Kind} (shaped : Shaped entry)
    (hrole : entry.role = .token kind) (hkind : kind ∈ [.text, .escape, .quoted]) :
    tokenLanguage kind entry.raw.toList = Texts.just (literal kind entry.raw.toList) := by
  simp only [Shaped, hrole] at shaped
  simp only [List.mem_cons, List.not_mem_nil, or_false] at hkind
  rcases hkind with rfl | rfl | rfl
  · rfl
  · obtain ⟨c, hraw⟩ := shaped
    rw [hraw, String.toList_ofList]
    rfl
  · obtain ⟨inside, text, hraw, hquotes⟩ := shaped
    rw [hraw, String.toList_ofList, tokenLanguage, literal, List.tail_cons, List.dropLast_concat,
      hquotes.unescape_eq]
    ext other
    constructor
    · intro h
      exact h.unescape_eq.symm.trans hquotes.unescape_eq
    · rintro rfl
      exact hquotes

section Denotes

variable {inside : Option Kind} {branch next : Branch} {done current L : Language Char}

theorem contains_notSlash (c : Char) : notSlash.contains c = true ↔ c ≠ '/' := by
  simp [notSlash, CharClass.contains_unions]

/-- A text is read character by character. -/
theorem denotes_addText (h : branch.Denotes done current) (text : List Char) :
    (Alters.addText text branch).Denotes done (current * Texts.just text) := by
  induction text generalizing branch current with
  | nil =>
    rw [Texts.just_nil, mul_one]
    exact h
  | cons c cs ih =>
    rw [Texts.just_cons, ← mul_assoc]
    exact ih (h.add (.single c))

/-- Reading a token that separates nothing adds its texts. -/
theorem denotes_readToken {kind : Kind} {raw : List Char}
    (hliteral : kind ∈ [.text, .escape, .quoted] →
      tokenLanguage kind raw = Texts.just (literal kind raw))
    (hpipe : kind ≠ .pipe) (hcomma : kind = .comma → inside ≠ some .brace)
    (h : branch.Denotes done current) :
    (readToken inside kind raw branch).Denotes done (current * tokenLanguage kind raw) := by
  cases kind with
  | text | escape | quoted =>
    rw [hliteral (by decide)]
    exact denotes_addText h _
  | star =>
    have hstar := (Denotes.one contains_notSlash).times_star true
    rw [Texts.kstar_oneOf] at hstar
    exact h.add hstar
  | globstar =>
    have hcontains (c : Char) : CharClass.notNewline.contains c = true ↔ c ≠ '\n' := by
      simp [CharClass.notNewline]
    have hstar := (Denotes.one hcontains).times_star true
    rw [Texts.kstar_oneOf] at hstar
    exact h.add hstar
  | qmark => exact h.add (.one contains_notSlash)
  | slash => exact h.add (.single '/')
  | comma =>
    rw [readToken, if_neg (hcomma rfl)]
    exact h.add (.single ',')
  | pipe => exact absurd rfl hpipe
  | paren | brace | bracket =>
    rw [tokenLanguage, mul_one]
    exact h

theorem denotes_quantified {lead : Option String} {p : Pattern} (h : Denotes p.Leads L) :
    Denotes (quantified lead p).Leads (repeated lead L) := by
  unfold quantified
  split
  · exact h.times_opt true
  · exact h.times_star true
  · exact h.times_plus true
  next hopt hstar hplus =>
    rw [repeated]
    · exact h
    · exact hopt
    · exact hstar
    · exact hplus

/-- Reading a tree that separates nothing adds its texts. -/
theorem denotes_readTree {entry : Entry Kind} {roots : List (Entry Kind)}
    {contents : Kind → Branch → Except SyntaxError Branch} {languages : Kind → Language Char}
    (shaped : Shaped entry) (hbar : entry.role = .token .pipe → inside ≠ none)
    (hbracket : entry.role ≠ .group .bracket)
    (hcontents : ∀ kind inner, kind ≠ .bracket → contents kind {} = .ok inner →
      Denotes inner.whole.Leads (languages kind))
    (hseparates : separates inside entry = false) (h : branch.Denotes done current)
    (hread : readTree inside entry roots contents branch = .ok next) :
    next.Denotes done (current * entryLanguage entry languages) := by
  cases hrole : entry.role with
  | token kind =>
    simp only [readTree, hrole] at hread
    obtain rfl := Except.ok.inj hread
    simp only [entryLanguage, hrole]
    refine denotes_readToken (tokenLanguage_eq_just shaped hrole) ?_ ?_ h
    · rintro rfl
      have hinside := hbar hrole
      cases inside with
      | none => exact hinside rfl
      | some kind => simp [separates, hrole] at hseparates
    · rintro rfl rfl
      simp [separates, hrole] at hseparates
  | group kind =>
    cases kind with
    | bracket => exact absurd hrole hbracket
    | paren =>
      simp only [readTree, hrole] at hread
      obtain ⟨inner, hinner, rfl⟩ := map_eq_ok_iff.1 hread
      simp only [entryLanguage, hrole]
      exact h.add (denotes_quantified (hcontents _ _ (by decide) hinner))
    | _ =>
      simp only [readTree, hrole] at hread
      obtain ⟨inner, hinner, rfl⟩ := map_eq_ok_iff.1 hread
      simp only [entryLanguage, hrole]
      exact h.add (hcontents _ _ (by decide) hinner)
  | root | eos | opening | closing =>
    simp only [readTree, hrole] at hread
    obtain rfl := Except.ok.inj hread
    simp only [entryLanguage, hrole, mul_one]
    exact h

/-- Reading a tree that separates alternatives starts the next one. -/
theorem readTree_of_separates {entry : Entry Kind} {roots : List (Entry Kind)}
    {contents : Kind → Branch → Except SyntaxError Branch}
    (hseparates : separates inside entry = true) :
    readTree inside entry roots contents branch = .ok branch.next := by
  unfold separates at hseparates
  split at hseparates
  next h => simp only [readTree, h, readToken]
  next h => simp only [readTree, h, readToken, if_true]
  next => cases hseparates

theorem modifyHead_one_mul (languages : List (Language Char)) :
    languages.modifyHead (1 * ·) = languages := by
  cases languages <;> simp

/-- **Reading the trees of a forest** adds the first of its alternatives to the one that is being
read, and the others after it. -/
theorem denotes_readForest {above : Option (Entry Kind)} {f : Forest (Entry Kind)}
    (hbars : f.Linked BarInGroup above) (fits : f.Linked Fits above)
    (habove : above = none ↔ inside = none)
    (hbrackets : ∀ entry ∈ f.preorder, entry.role ≠ .group .bracket)
    (h : branch.Denotes done current) (hread : readForest inside f branch = .ok next) :
    ∃ done' current', next.Denotes done' current' ∧
      done' + current' = done + ((alternatives inside f).modifyHead (current * ·)).sum := by
  induction f generalizing inside above branch next done current with
  | nil =>
    obtain rfl := Except.ok.inj hread
    exact ⟨done, current, h, by simp [alternatives]⟩
  | cons entry below rest ihbelow ihrest =>
    obtain ⟨hbar, hbelow, hrest⟩ := hbars
    obtain ⟨⟨hshaped, -⟩, hfitsBelow, hfitsRest⟩ := fits
    obtain ⟨hrole, hinners, hrests⟩ := Forest.forall_mem_preorder_cons.1 hbrackets
    rw [readForest] at hread
    cases hmiddle : readTree inside entry below.roots (fun kind => readForest (some kind) below)
        branch with
    | error error =>
      rw [hmiddle] at hread
      cases hread
    | ok middle =>
      rw [hmiddle] at hread
      cases hseparates : separates inside entry with
      | true =>
        rw [readTree_of_separates hseparates] at hmiddle
        obtain rfl := Except.ok.inj hmiddle
        obtain ⟨done', current', hnext, hsum⟩ := ihrest hrest hfitsRest habove hrests h.next hread
        refine ⟨done', current', hnext, ?_⟩
        rw [hsum, modifyHead_one_mul, alternatives, if_pos hseparates, List.modifyHead_cons,
          List.sum_cons, mul_one, add_assoc]
      | false =>
        have hcontents (kind : Kind) (inner : Branch) (_ : kind ≠ .bracket)
            (hinner : readForest (some kind) below {} = .ok inner) :
            Denotes inner.whole.Leads (alternatives (some kind) below).sum := by
          have hinside : some entry = none ↔ some kind = none := by simp
          obtain ⟨done', current', hnext, hsum⟩ :=
            ihbelow hbelow hfitsBelow hinside hinners .empty hinner
          rw [modifyHead_one_mul, zero_add] at hsum
          exact hsum ▸ hnext.whole
        have hentry := denotes_readTree hshaped
          (fun hpipe hinside => hbar hpipe (habove.2 hinside)) hrole hcontents hseparates h hmiddle
        obtain ⟨done', current', hnext, hsum⟩ := ihrest hrest hfitsRest habove hrests hentry hread
        refine ⟨done', current', hnext, ?_⟩
        rw [hsum, alternatives, if_neg (by simp [hseparates]), List.modifyHead_modifyHead]
        simp only [Function.comp_def, mul_assoc]

end Denotes

/-! ## Matching whole texts -/

/-- A text between anchors on both sides is read as the alternation that it makes on its own. -/
theorem read_between_anchors {text : List Char} {effect : Branch → Except SyntaxError Branch}
    {inner : Branch} (htext : Alters text (')' :: ['\\', 'z']) effect)
    (hinner : effect {} = .ok inner) :
    ∃ depth, Pattern.read (Rule.anchored text ++ ['\\', 'z']) =
      .ok ⟨.seq (.assert .textStart) (.seq inner.whole (.assert .textEnd)), [], depth⟩ := by
  have hend : Alters ['\\', 'z'] [] _ := Alters.textEnd
  have hwhole : Alters (Rule.anchored text) (['\\', 'z'] ++ []) _ := htext.anchored
  rw [Pattern.read_of_alters (hwhole.append hend), hinner]
  exact ⟨_, rfl⟩

/-- Matching an expression between anchors on both sides. -/
theorem isSome_search_between_anchors {p : Pattern} {L : Language Char} (h : Denotes p.Leads L)
    (text : List Char) :
    ((Pattern.seq (.assert .textStart) (.seq p (.assert .textEnd))).compile.search text).isSome ↔
      text ∈ L := by
  rw [Pattern.isSome_search]
  constructor
  · rintro ⟨next, middle, hleads, hend, rfl⟩
    obtain ⟨read, hread, hreads⟩ := (h _ _).1 hleads
    have hempty : middle.rest = [] := List.isEmpty_iff.1 hend
    obtain rfl : read = text := Place.reads_start.1 ⟨middle, hempty, hreads⟩
    exact hread
  · intro htext
    obtain ⟨middle, hempty, hreads⟩ := Place.reads_start.2 (Eq.refl text)
    exact ⟨middle, middle, (h _ _).2 ⟨text, htext, hreads⟩, List.isEmpty_iff.2 hempty, rfl⟩

/-- A regular expression is well-formed, and the texts that it matches as a whole are those of a
language. -/
def MatchesJust (regex : List Char) (L : Language Char) : Prop :=
  (∃ read, Pattern.read regex = .ok read) ∧
    ∃ whole, Pattern.read (Rule.anchored regex ++ ['\\', 'z']) = .ok whole ∧
      ∀ text : List Char, (whole.pattern.compile.search text).isSome ↔ text ∈ L

/-- A text that is read as an alternation matches what the alternation stands for. -/
theorem matchesJust_of_alters {regex : List Char} {effect : Branch → Except SyntaxError Branch}
    {inner : Branch} {L : Language Char} (hread : ∀ rest, Apart rest → Alters regex rest effect)
    (hinner : effect {} = .ok inner) (h : Denotes inner.whole.Leads L) : MatchesJust regex L := by
  obtain ⟨depth, hwhole⟩ := read_between_anchors (hread _ (by simp [Apart])) hinner
  refine ⟨⟨⟨inner.whole, [], inner.depth⟩, ?_⟩, _, hwhole, isSome_search_between_anchors h⟩
  rw [Pattern.read_of_alters (hread [] (by simp [Apart])), hinner]
  rfl

/-- Without brackets there are no ranges to be reversed. -/
theorem ordered_of_forall {f : Forest (Entry Kind)}
    (hbrackets : ∀ entry ∈ f.preorder, entry.role ≠ .group .bracket) : Ordered f = true := by
  induction f with
  | nil => rfl
  | cons entry below rest ihbelow ihrest =>
    obtain ⟨hentry, hbelow, hrest⟩ := Forest.forall_mem_preorder_cons.1 hbrackets
    rw [Ordered, ihrest hrest, Bool.and_true]
    split
    next h => exact absurd h hentry
    next => exact ihbelow hbelow
    next => rfl

/-- **The regular expression of a pattern without brackets matches the texts in the language of the
pattern**, and no other, if it has to match the whole text. -/
theorem toRegex_language {pattern regex : String} {document : Document Kind}
    (hparse : parse pattern (ParserOptions.withStrict {} true) = .ok document)
    (hbrackets : ∀ entry ∈ document.toArena.forest.preorder, entry.role ≠ .group .bracket)
    (hregex : toRegex pattern = .ok regex) :
    (∃ read, Pattern.read regex.toList = .ok read) ∧
      ∃ whole, Pattern.read (Rule.anchored regex.toList ++ ['\\', 'z']) = .ok whole ∧
        ∀ text : List Char, (whole.pattern.compile.search text).isSome ↔
          text ∈ language document.toArena.forest := by
  obtain ⟨other, hother, htranslate⟩ := exists_of_toRegex hregex
  obtain rfl : document = other := Except.ok.inj (hparse.symm.trans hother)
  have parsed := parsed_of_parse hparse
  have hread (rest : List Char) (hrest : Apart rest) :
      Alters regex.toList rest (readForest none document.toArena.forest) :=
    alters_translate (by simp) parsed.fits parsed.tiles.raw_ne_empty htranslate hrest
  have hforest := succeeds_readForest none document.toArena.forest {}
  rw [ordered_of_forall hbrackets] at hforest
  obtain ⟨branch, hbranch⟩ := hforest
  obtain ⟨done, current, hdenotes, hsum⟩ := denotes_readForest
    (linked_barInGroup rfl hparse) parsed.fits ⟨fun _ => rfl, fun _ => rfl⟩ hbrackets .empty
    hbranch
  have hlanguage : done + current = language document.toArena.forest := by
    rw [hsum, modifyHead_one_mul, zero_add, language]
  obtain ⟨depth, hwhole⟩ := read_between_anchors (hread _ (by simp [Apart])) hbranch
  refine ⟨?_, _, hwhole, fun text => ?_⟩
  · rw [Pattern.read_of_alters (hread [] (by simp [Apart])), hbranch]
    exact ⟨_, rfl⟩
  · exact isSome_search_between_anchors (hlanguage ▸ hdenotes.whole) text

/-- A pattern with alternatives in alternatives, and texts in its language and not in it. -/
theorem toRegex_language_nested :
    ∃ document, parse "\x7ba,@(b|c)*\x7d" (ParserOptions.withStrict {} true) = .ok document ∧
      ['c', 'x'] ∈ language document.toArena.forest ∧
        ['c', '/'] ∉ language document.toArena.forest := by
  have hregex : toRegex "\x7ba,@(b|c)*\x7d" = .ok "(?:a|(?:b|c)[^/]*)" := by decide +kernel
  have hnone : (parse "\x7ba,@(b|c)*\x7d" (ParserOptions.withStrict {} true)).map (fun document =>
    decide (∀ entry ∈ document.toArena.forest.preorder, entry.role ≠ .group .bracket)) =
      .ok true := by decide +kernel
  have hsearch : (Pattern.read (Rule.anchored "(?:a|(?:b|c)[^/]*)".toList ++ ['\\', 'z'])).map
    (fun whole => ((whole.pattern.compile.search ['c', 'x']).isSome,
      (whole.pattern.compile.search ['c', '/']).isSome)) = .ok (true, false) := by decide +kernel
  obtain ⟨document, hparse, -⟩ := exists_of_toRegex hregex
  rw [hparse] at hnone
  have hbrackets := of_decide_eq_true (Except.ok.inj hnone)
  obtain ⟨-, whole, hwhole, hlanguage⟩ := toRegex_language hparse hbrackets hregex
  rw [hwhole] at hsearch
  obtain ⟨hmatch, hmiss⟩ := Prod.mk.inj (Except.ok.inj hsearch)
  exact ⟨document, hparse, (hlanguage _).1 hmatch, fun h => by simp [(hlanguage _).2 h] at hmiss⟩

end GlobTree.Extglob
