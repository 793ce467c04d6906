import GlobTree.Proofs.Parser.Turns
import GlobTree.Proofs.Results
/-!
# Feeding a parser

What `Parser.feed`, `Parser.finish` and `Parser.parse` do with a table of handlers that cuts texts
in a given way. `Content` is what a document says without the numbers of its nodes, and
`Document.Says` that a document with the nodes in order has a content.
-/

namespace GlobTree

variable {K M : Type}

/-- What a document says. -/
structure Content (K : Type) where
  forest : Forest (Entry K)
  notes : Array Diagnostic
  source : String
  label : String
  deriving DecidableEq, Repr

/-- The content of a document. -/
def Document.content (document : Document K) : Content K :=
  ⟨document.toArena.forest, document.diagnostics, document.source, document.label⟩

/-- A document has a content, and its nodes are numbered in the order in which they are there. -/
structure Document.Says (document : Document K) (content : Content K) : Prop where
  spine : document.toArena.Spine [] [] content.forest [] document.size
  notes : document.diagnostics = content.notes
  source : document.source = content.source
  label : document.label = content.label

theorem Document.Says.content_eq {document : Document K} {content : Content K}
    (h : document.Says content) : document.content = content := by
  have hforest : document.toArena.forest = content.forest := h.spine.forest_eq (Nat.le_refl _)
  rw [Document.content, hforest, h.notes, h.source, h.label]

variable [DecidableEq K]

/-- The content of a document that is read in one go. -/
def Draft.read (cut : Draft.Cut K) (options : ParserOptions) (text : List Char) :
    Except (ParseError K) (Content K) := do
  let (draft, place) ← ({} : Draft K).scan cut options .start text
  let forest ← draft.finish options place
  return ⟨forest, draft.notes, String.ofList text, options.sourceLabel⟩

/-- A content that is read is what scanning leads to, with the end after it. -/
theorem Draft.exists_of_read {cut : Draft.Cut K} {options : ParserOptions} {text : List Char}
    {content : Content K} (h : Draft.read cut options text = .ok content) :
    ∃ draft stop, ({} : Draft K).scan cut options .start text = .ok (draft, stop) ∧
      content.forest = draft.zipper.forest ++
        .leaf ⟨.eos, "", none, none, .point stop options.sourceLabel⟩ ∧
      content.notes = draft.notes ∧ content.label = options.sourceLabel := by
  rw [read] at h
  obtain ⟨⟨draft, stop⟩, hscan, h⟩ := bind_eq_ok_iff.1 h
  obtain ⟨forest, hfinish, h⟩ := bind_eq_ok_iff.1 h
  cases h
  rw [finish] at hfinish
  split at hfinish
  next => cases hfinish
  next => exact ⟨draft, stop, hscan, (Except.ok.inj hfinish).symm, rfl, rfl⟩

namespace ParseState.Follows

variable {state : ParseState K} {draft : Draft K}

/-- The innermost open group has a node, which starts where the draft says. -/
theorem unclosed? (h : state.Follows draft) {kind : K} {id : NodeId}
    (hinner : state.nesting.innermost? = some (kind, id)) :
    ∃ node, state.arena.node? id = some node ∧ draft.unclosed? = some (kind, node.span.start) := by
  have hspine := h.spine
  obtain ⟨stack, hstack⟩ : ∃ stack, state.nesting.stack = (kind, id) :: stack :=
    List.head?_eq_some_iff.1 hinner
  rw [hstack] at hspine
  obtain ⟨level, lower, houter, role, ⟨node, hnode, hentry, -⟩, -⟩ := hspine.exists_level
  refine ⟨node, hnode, ?_⟩
  rw [Draft.unclosed?, houter, List.head?_cons, Option.bind_some, role, ← hentry]
  rfl

theorem unclosed?_of_none (h : state.Follows draft) (hinner : state.nesting.innermost? = none) :
    draft.unclosed? = none := by
  have hroles := h.spine.roles
  have hstack : state.nesting.stack = [] := List.head?_eq_none_iff.1 hinner
  rw [hstack, List.map_nil, List.map_eq_nil_iff] at hroles
  rw [Draft.unclosed?, hroles]
  rfl

end ParseState.Follows

namespace Parser

/-- **The end of a document is that of the draft.** -/
theorem finishState_of_follows {state : ParseState K} {draft : Draft K}
    (follows : state.Follows draft) :
    match draft.finish state.options state.location with
    | .ok forest => ∃ document, finishState state = .ok document ∧
      document.Says ⟨forest, draft.notes, String.ofList state.reader.text, state.label⟩
    | .error error => finishState state = .error (.failed error) := by
  let eos : Node K :=
    { role := .eos
      raw := ""
      span := .point state.location state.label
      made := some state.moment }
  have hroot := follows.spine.closeAll
  have hadd : state.arena.append? rootId eos = some (state.arena.size, state.arena.add rootId eos) :=
    Arena.append?_eq_add hroot.top_lt_size eos
  let document : Document K := { state.document with toArena := state.arena.add rootId eos }
  have hcontent : document.Says ⟨draft.zipper.forest ++ .leaf eos.entry, draft.notes,
      String.ofList state.reader.text, state.label⟩ := by
    refine ⟨?_, follows.notes, rfl, rfl⟩
    have hspine := hroot.addLeaf eos
    rwa [← Arena.size_add state.arena rootId eos] at hspine
  cases hinner : state.nesting.innermost? with
  | none =>
    have hfinish : draft.finish state.options state.location =
        .ok (draft.zipper.forest ++ .leaf eos.entry) := by
      rw [Draft.finish, follows.unclosed?_of_none hinner]
      cases state.options.strict <;> rfl
    rw [hfinish]
    refine ⟨document, ?_, hcontent⟩
    rw [finishState, hinner]
    cases state.options.strict <;> simp only [] <;> rw [hadd]
  | some group =>
    obtain ⟨kind, id⟩ := group
    obtain ⟨node, hnode, hunclosed⟩ := follows.unclosed? hinner
    cases hstrict : state.options.strict with
    | true =>
      have hfinish : draft.finish state.options state.location =
          .error (.at (.unterminated kind) state.label node.span.start) := by
        rw [Draft.finish, hunclosed, hstrict]
        rfl
      rw [hfinish]
      show finishState state = _
      rw [finishState, hinner, hstrict]
      simp only [hnode]
    | false =>
      have hfinish : draft.finish state.options state.location =
          .ok (draft.zipper.forest ++ .leaf eos.entry) := by
        rw [Draft.finish, hunclosed, hstrict]
        rfl
      rw [hfinish]
      refine ⟨document, ?_, hcontent⟩
      rw [finishState, hinner, hstrict]
      simp only []
      rw [hadd]

/-! ## Work on a parser -/

variable {cut : Draft.Cut K} {sound : Draft K → Prop} {parser : Parser K M} {draft : Draft K}

/-- A parser is ready for more text: it has not failed, and all text it was given was read. -/
structure Ready (parser : Parser K M) (draft : Draft K) : Prop where
  clean : parser.poisoned = false
  follows : parser.state.Follows draft
  done : parser.state.remaining = []

/-- A fresh parser is ready. -/
theorem ready_of_fresh {options : ParserOptions} (fresh : parser.state = .fresh options)
    (clean : parser.poisoned = false) : parser.Ready {} where
  clean := clean
  follows := by
    rw [fresh]
    exact ParseState.follows_fresh options
  done := by
    rw [fresh]
    rfl

/-- **Feeding a parser does what scanning the text does.** -/
theorem feed_of_ready (obeys : Obeys parser.handlers.toList cut sound) (ready : parser.Ready draft)
    (hsound : sound draft) (chunk : String) :
    match draft.scan cut parser.state.options parser.state.location chunk.toList with
    | .ok (next, place) => sound next ∧ ∃ state,
      parser.feed chunk = (.ok (), { parser with state := state }) ∧
        ({ parser with state := state } : Parser K M).Ready next ∧
        state.options = parser.state.options ∧ state.location = place ∧
        state.consumed = parser.state.consumed ++ chunk.toList
    | .error error => (parser.feed chunk).1 = .error (.failed error) := by
  obtain ⟨clean, follows, done⟩ := ready
  have htext : (parser.state.feed chunk.toList).remaining = chunk.toList := by
    have happend : (parser.state.feed chunk.toList).remaining =
      parser.state.remaining ++ chunk.toList := rfl
    rw [happend, done, List.nil_append]
  have henough : (parser.state.feed chunk.toList).remaining.length ≤
      (parser.state.feed chunk.toList).reader.left := by
    rw [(parser.state.feed chunk.toList).reader.left_eq]
    exact length_le_byteLength _
  have hreads := obeys.turns henough (follows.feed chunk.toList) hsound
  rw [Reads, htext] at hreads
  have hscan : draft.scan cut (parser.state.feed chunk.toList).options
      (parser.state.feed chunk.toList).location chunk.toList =
    draft.scan cut parser.state.options parser.state.location chunk.toList := rfl
  rw [hscan] at hreads
  cases hresult : draft.scan cut parser.state.options parser.state.location chunk.toList with
  | error error =>
    rw [hresult] at hreads
    obtain ⟨state, hrun⟩ := hreads
    show (parser.feed chunk).1 = _
    rw [feed, guard, clean]
    simp only [Bool.false_eq_true, if_false, hrun]
  | ok result =>
    rw [hresult] at hreads
    obtain ⟨hsound', hplace, state, hnext, hrun⟩ := hreads
    have hlocation : state.location = result.2 :=
      (hnext.location (follows.feed chunk.toList)).trans hplace.symm
    refine ⟨hsound', state, ?_, ⟨clean, hnext.follows, hnext.remaining⟩, hnext.options, hlocation,
      hnext.consumed⟩
    rw [feed, guard, clean]
    simp only [Bool.false_eq_true, if_false, hrun]

/-- **Finishing a parser does what finishing the draft does.** -/
theorem finish_of_ready (ready : parser.Ready draft) :
    match draft.finish parser.state.options parser.state.location with
    | .ok forest => ∃ document, parser.finish.1 = .ok document ∧ document.Says
      ⟨forest, draft.notes, String.ofList parser.state.consumed, parser.state.label⟩
    | .error error => parser.finish.1 = .error (.failed error) := by
  obtain ⟨clean, follows, done⟩ := ready
  have hfinish := finishState_of_follows follows
  have htext : parser.state.reader.text = parser.state.consumed := by
    show parser.state.consumed ++ parser.state.remaining = _
    rw [done, List.append_nil]
  rw [htext] at hfinish
  cases hresult : draft.finish parser.state.options parser.state.location with
  | error error =>
    rw [hresult] at hfinish
    show parser.finish.1 = _
    rw [finish, guard, clean]
    simp only [Bool.false_eq_true, if_false, hfinish]
  | ok forest =>
    rw [hresult] at hfinish
    obtain ⟨document, hdocument, hcontent⟩ := hfinish
    refine ⟨document, ?_, hcontent⟩
    rw [finish, guard, clean]
    simp only [Bool.false_eq_true, if_false, hdocument]

theorem parse_of_feed_ok {next : Parser K M} {text : String} (h : parser.feed text = (.ok (), next)) :
    parser.parse text = next.finish := by
  rw [parse, h]

theorem parse_of_feed_error {stop : ParseStop K} {text : String}
    (h : (parser.feed text).1 = .error stop) : (parser.parse text).1 = .error stop := by
  rw [parse]
  generalize parser.feed text = result at h
  obtain ⟨result, next⟩ := result
  cases h
  rfl

/-- **A fresh parser reads a text as a draft does.** -/
theorem parse_of_fresh (obeys : Obeys parser.handlers.toList cut sound) (hsound : sound {})
    {options : ParserOptions} (fresh : parser.state = .fresh options)
    (clean : parser.poisoned = false) (text : String) :
    match Draft.read cut options text.toList with
    | .ok content => ∃ document, (parser.parse text).1 = .ok document ∧ document.Says content
    | .error error => (parser.parse text).1 = .error (.failed error) := by
  have hfeed := feed_of_ready obeys (ready_of_fresh fresh clean) hsound text
  have hoptions : parser.state.options = options := by rw [fresh]; rfl
  have hlocation : parser.state.location = .start := by rw [fresh]; rfl
  have hconsumed : parser.state.consumed = [] := by rw [fresh]; rfl
  rw [hoptions, hlocation, hconsumed] at hfeed
  rw [Draft.read]
  cases hscan : ({} : Draft K).scan cut options .start text.toList with
  | error error =>
    rw [hscan] at hfeed
    exact parse_of_feed_error hfeed
  | ok result =>
    obtain ⟨draft, place⟩ := result
    rw [hscan] at hfeed
    obtain ⟨-, state, hresult, hready, hsame, hplace, htext⟩ := hfeed
    have hfinish := finish_of_ready hready
    rw [List.nil_append] at htext
    simp only [hsame, hplace, htext, ParseState.label] at hfinish
    rw [parse_of_feed_ok hresult]
    simp only [bind, Except.bind]
    cases hforest : draft.finish options place with
    | error error =>
      rw [hforest] at hfinish
      exact hfinish
    | ok forest =>
      rw [hforest] at hfinish
      exact hfinish

/-- **A document of a fresh parser is what scanning the text leads to**, with the end after it. -/
theorem exists_scan_of_parse (obeys : Obeys parser.handlers.toList cut sound) (hsound : sound {})
    {options : ParserOptions} (fresh : parser.state = .fresh options)
    (clean : parser.poisoned = false) {text : String} {document : Document K}
    (h : (parser.parse text).1 = .ok document) :
    ∃ content draft stop, document.Says content ∧
      ({} : Draft K).scan cut options .start text.toList = .ok (draft, stop) ∧
      content.forest = draft.zipper.forest ++
        .leaf ⟨.eos, "", none, none, .point stop options.sourceLabel⟩ ∧
      content.notes = draft.notes ∧ content.label = options.sourceLabel := by
  have hparse := parse_of_fresh obeys hsound fresh clean text
  cases hread : Draft.read cut options text.toList with
  | error error =>
    rw [hread] at hparse
    cases h.symm.trans hparse
  | ok content =>
    rw [hread] at hparse
    obtain ⟨other, hother, hcontent⟩ := hparse
    obtain rfl : document = other := Except.ok.inj (h.symm.trans hother)
    obtain ⟨draft, stop, hscan, hrest⟩ := Draft.exists_of_read hread
    exact ⟨content, draft, stop, hcontent, hscan, hrest⟩

end Parser

end GlobTree
