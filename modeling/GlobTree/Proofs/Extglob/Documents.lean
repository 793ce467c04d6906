import GlobTree.Proofs.Extglob.Scanner
/-!
# The documents of extended glob patterns

`Parsed` says what is known of every document that a parser of patterns hands over, whether the
pattern came at once or in chunks: its forest, how the entries cover the text, and their shapes.
-/

namespace GlobTree.Extglob

/-- A document has a forest that was parsed from a text with a label. -/
structure Parsed (document : Document Kind) (forest : Forest (Entry Kind)) (text : List Char)
    (label : String) : Prop where
  spine : document.toArena.Spine [] [] forest [] document.size
  source : document.source = String.ofList text
  labelled : document.label = label
  tiles : Tiles label .start forest.preorder text
  placed : forest.Linked Draft.Placed none
  fits : forest.Linked Fits none

/-- The forest is stored below the root. -/
theorem Parsed.root {document : Document Kind} {forest : Forest (Entry Kind)} {text : List Char}
    {label : String} (h : Parsed document forest text label) :
    ∃ root, document.node? rootId = some root ∧ root.role = .root ∧
      root.children.toList = forest.ids 1 ∧ forest.LaidAt document.toArena rootId 1 ∧
        document.size = 1 + forest.size :=
  h.spine.exists_root

theorem fits_eos (span : Span) : Fits none ⟨.eos, "", none, none, span⟩ :=
  ⟨trivial, fun ⟨_, h, _⟩ => absurd h (by simp)⟩

/-- **What a parser hands over was parsed from all chunks together.** -/
theorem parsed_of_feedAll {options : ParserOptions} {chunks : List String}
    {document : Document Kind} (fed : ((parser options).feedAll chunks).1 = .ok ())
    (finished : ((parser options).feedAll chunks).2.finish.1 = .ok document) :
    Parsed document document.toArena.forest (chunks.flatMap String.toList) options.sourceLabel := by
  have hobeys : Obeys (parser options).handlers.toList
    (fun innermost c cs => some (cut innermost c cs)) (Draft.Linked Fits) := obeys_cut
  have hready : (parser options).Ready {} := Parser.ready_of_fresh rfl rfl
  obtain ⟨draft, hlast, hfits, hoptions, hconsumed, hcovers⟩ :=
    Parser.covers_feedAll hobeys hready (Draft.linked_empty Fits) (Draft.covers_empty _) fed
  have hlabel : ((parser options).feedAll chunks).2.state.label = options.sourceLabel :=
    congrArg ParserOptions.sourceLabel hoptions
  have hcovers' : draft.Covers ((parser options).feedAll chunks).2.state.label
      ((parser options).feedAll chunks).2.state.consumed := hlabel ▸ hcovers
  obtain ⟨hcontent, htiles, hplaced⟩ := Parser.covers_finish hlast hcovers' finished
  have htext : ((parser options).feedAll chunks).2.state.consumed =
      chunks.flatMap String.toList := hconsumed
  rw [htext] at htiles hcontent
  rw [hlabel] at htiles hcontent hplaced
  have hforest : document.toArena.forest = _ := congrArg Content.forest hcontent.content_eq
  rw [hforest]
  exact ⟨hcontent.spine, hcontent.source, hcontent.label, htiles, hplaced,
    Forest.linked_append.2 ⟨hfits.zipper.forest, fits_eos _, trivial, trivial⟩⟩

/-- **What is parsed in one go was parsed from the pattern.** -/
theorem parsed_of_parse {pattern : String} {options : ParserOptions} {document : Document Kind}
    (h : parse pattern options = .ok document) :
    Parsed document document.toArena.forest pattern.toList options.sourceLabel := by
  have hfeed : (parser options).feedAll [pattern] = (parser options).feed pattern := by
    rw [Parser.feedAll]
    generalize (parser options).feed pattern = result
    obtain ⟨outcome, next⟩ := result
    cases outcome <;> rfl
  rw [parse, Parser.parse] at h
  generalize hresult : (parser options).feed pattern = result at h
  obtain ⟨outcome, next⟩ := result
  rw [hresult] at hfeed
  cases outcome with
  | error stop => cases h
  | ok value =>
    have hfed : ((parser options).feedAll [pattern]).1 = .ok () := congrArg Prod.fst hfeed
    have hparsed := parsed_of_feedAll hfed ((congrArg (·.2.finish.1) hfeed).trans h)
    simpa using hparsed

/-! ## Bars -/

/-- A bar is in a group. -/
def BarInGroup (above : Option (Entry Kind)) (entry : Entry Kind) : Prop :=
  entry.role = .token .pipe → above ≠ none

/-- **There is a complaint about bars outside of groups, and about nothing else.** -/
theorem complaint_of_cut {innermost : Option Kind} {c : Char} {cs : List Char} {kind : Kind}
    {complaint : Option String} {more : Nat}
    (h : cut innermost c cs = (.token kind complaint, more)) :
    complaint = if kind = .pipe ∧ innermost = none then some pipeComplaint else none := by
  rw [cut] at h
  split at h
  next =>
    cases h
    rfl
  next =>
    split at h
    next =>
      unfold cutInBracket at h
      split at h
      · cases h
      · split at h <;> cases h <;> rfl
    next =>
      unfold cutOutside at h
      dsimp only at h
      split at h
      · cases h
      · split at h
        case h_1 | h_6 | h_8 => split at h <;> cases h <;> rfl
        case h_12 =>
          cases h
          cases innermost <;> rfl
        all_goals
          cases h
          try rfl

/-- Where complaints are errors, every piece that is put keeps the bars in groups. -/
theorem newLinks_barInGroup {draft next : Draft Kind} {options : ParserOptions} {place : Location}
    {c : Char} {cs : List Char} {use : Use Kind} {more : Nat} (throws : options.errorMode = .throw)
    (hcut : cut draft.innermost? c cs = (use, more))
    (hput : draft.put options place use (c :: cs.take more) = .ok next) :
    Draft.NewLinks BarInGroup (Zipper.above? draft.zipper.outer) use (c :: cs.take more) place
      options.sourceLabel := by
  cases use with
  | opening kind lead => exact ⟨fun h => (by cases h), fun h => (by cases h)⟩
  | closing kind trail => exact fun h => (by cases h)
  | token kind complaint =>
    intro hrole habove
    obtain rfl : kind = .pipe := Role.token.inj hrole
    have hnone : draft.innermost? = none := by
      rw [Zipper.above?, Option.map_eq_none_iff] at habove
      rw [Draft.innermost?, habove]
      rfl
    rw [hnone] at hcut
    rw [complaint_of_cut hcut, if_pos ⟨rfl, rfl⟩, Draft.put, throws] at hput
    cases hput

/-- **There is no bar outside of groups**, unless problems are only noted. -/
theorem linked_barInGroup {pattern : String} {options : ParserOptions} {document : Document Kind}
    (throws : options.errorMode = .throw) (h : parse pattern options = .ok document) :
    document.toArena.forest.Linked BarInGroup none := by
  obtain ⟨content, draft, stop, hcontent, hscan, hforest, -, -⟩ :=
    Parser.exists_scan_of_parse obeys_cut (Draft.linked_empty Fits) rfl rfl h
  have hlinked : draft.Linked BarInGroup := by
    let P (draft : Draft Kind) (_ : Location) (_ : List Char) : Prop := draft.Linked BarInGroup
    have hstart : P {} .start pattern.toList := Draft.linked_empty BarInGroup
    refine Draft.scan_induction (P := P) (fun linked hcut hput => ?_) hstart hscan
    exact linked.put hput (newLinks_barInGroup throws (Option.some.inj hcut) hput)
  have hcontents : document.toArena.forest = content.forest :=
    congrArg Content.forest hcontent.content_eq
  rw [hcontents, hforest]
  exact Forest.linked_append.2 ⟨hlinked.zipper.forest, fun h => (by cases h), trivial, trivial⟩

end GlobTree.Extglob
