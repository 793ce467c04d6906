import GlobTree.Extglob.Basic
import GlobTree.Proofs.Extglob.Scanner
import GlobTree.Proofs.Parser.Groups
import GlobTree.Proofs.Parser.Plain
/-!
# Strict parses

A strict parser knows the groups that are open, and a document knows the groups that have no closing
token as their last child. The two notions agree: a strict parse is one that is not strict, with a
check that all groups of the document are closed, and it complains about the last group that is not
(`Parser.agrees_of_obeys`). `Agrees` says so of two results.

The parser's open groups are those around the place of the draft, and these are the groups of the
finished document that are not closed (`Draft.Grouped.unclosed_forest`). Nothing else depends on
being strict, since handlers leave that option alone (`Parser.feed_mapOptions`).
-/

namespace GlobTree

variable {K M : Type} [DecidableEq K]

/-! ## Two notions of open groups -/

/-- All groups of a document are closed. -/
def Document.AllClosed (document : Document K) : Prop :=
  ∀ id node kind, document.node? id = some node → node.role = .group kind →
    document.isClosed? id = some true

/-- How the result of a strict parse agrees with that of a lenient one, which takes groups that are
not closed. -/
structure Agrees (lenient strict : Except (ParseStop K) (Document K)) : Prop where
  /-- It has the same document, if all groups of that are closed. -/
  ok_iff : ∀ document, strict = .ok document ↔ lenient = .ok document ∧ document.AllClosed
  /-- It complains about the last group that is not closed, if there is one. -/
  unterminated : ∀ document, lenient = .ok document → ¬ document.AllClosed →
    ∃ id node kind, document.unclosed.getLast? = some id ∧ document.node? id = some node ∧
      node.role = .group kind ∧
      strict = .error (.failed (.at (.unterminated kind) document.label node.span.start))
  /-- It has the same error. -/
  failed : ∀ stop, lenient = .error stop → strict = .error stop

namespace Agrees

theorem of_failed (stop : ParseStop K) :
    Agrees (.error stop) (.error stop : Except (ParseStop K) (Document K)) where
  ok_iff _ := ⟨fun h => (by cases h), fun h => (by cases h.1)⟩
  unterminated _ h := by cases h
  failed _ h := h

theorem of_allClosed {document : Document K} (closed : document.AllClosed) :
    Agrees (.ok document) (.ok document) where
  ok_iff other := by
    refine ⟨fun h => ⟨h, ?_⟩, fun h => h.1⟩
    obtain rfl := Except.ok.inj h
    exact closed
  unterminated other h hnot := by
    obtain rfl := Except.ok.inj h
    exact absurd closed hnot
  failed _ h := h

theorem of_not_allClosed {document : Document K} (hnot : ¬ document.AllClosed) {id : NodeId}
    {node : Node K} {kind : K} (hlast : document.unclosed.getLast? = some id)
    (hnode : document.node? id = some node) (hrole : node.role = .group kind) :
    Agrees (.ok document)
      (.error (.failed (.at (.unterminated kind) document.label node.span.start))) where
  ok_iff other := by
    refine ⟨fun h => (by cases h), fun h => ?_⟩
    obtain rfl := Except.ok.inj h.1
    exact absurd h.2 hnot
  unterminated other h _ := by
    obtain rfl := Except.ok.inj h
    exact ⟨id, node, kind, hlast, hnode, hrole, rfl⟩
  failed _ h := by cases h

end Agrees

namespace Document.Says

variable {document : Document K} {content : Content K}

/-- The groups that are not closed have the labels that the forest says. -/
theorem map_unclosed (h : document.Says content) :
    (document.unclosed.map fun id => (document.node? id).map Node.entry) =
      content.forest.unclosed.map some := by
  obtain ⟨_, -, -, -, hlaid, -⟩ := h.spine.exists_root
  have horder : document.order = List.range' 1 content.forest.size := h.spine.order_eq
  rw [Arena.unclosed, horder]
  exact hlaid.map_unclosed

/-- A group is closed if and only if it is not listed. -/
theorem isClosed?_iff (h : document.Says content) {id : NodeId} {node : Node K} {kind : K}
    (hnode : document.node? id = some node) (hkind : node.role = .group kind) :
    document.isClosed? id = some true ↔ id ∉ document.unclosed := by
  obtain ⟨root, hroot, hrole, -, hlaid, -⟩ := h.spine.exists_root
  have hid : id ≠ rootId := by
    rintro rfl
    obtain rfl := Option.some.inj (hnode.symm.trans hroot)
    cases hkind.symm.trans hrole
  have horder : id ∈ document.order := h.spine.mem_order hnode hid
  have heach := Forest.each_of_forall (P := fun _ _ => True) (fun _ _ => trivial) content.forest
  obtain ⟨other, below, hother, hchildren, hbelow, -⟩ :=
    hlaid.exists_below heach (h.spine.order_eq ▸ horder)
  obtain rfl := Option.some.inj (hnode.symm.trans hother)
  have hclosed := Arena.isClosed?_of_laid hnode hkind hchildren hbelow
  rw [Arena.unclosed, List.mem_filter, not_and, Arena.isUnclosed, hnode, hclosed]
  simp [horder, hkind]

theorem unclosed_eq_nil_iff (h : document.Says content) :
    content.forest.unclosed = [] ↔ document.unclosed = [] := by
  rw [← List.map_eq_nil_iff (f := some), ← h.map_unclosed, List.map_eq_nil_iff]

/-- All groups are closed if and only if the forest has none that is not. -/
theorem allClosed_iff (h : document.Says content) :
    document.AllClosed ↔ content.forest.unclosed = [] := by
  rw [h.unclosed_eq_nil_iff]
  constructor
  · intro hclosed
    refine List.eq_nil_iff_forall_not_mem.2 fun id hid => ?_
    have hunclosed := (List.mem_filter.1 hid).2
    rw [Arena.isUnclosed, Bool.and_eq_true, Option.any_eq_true] at hunclosed
    obtain ⟨⟨node, hnode, hgroup⟩, -⟩ := hunclosed
    obtain ⟨kind, hkind⟩ : ∃ kind, node.role = .group kind := by
      cases hrole : node.role with
      | group kind => exact ⟨kind, rfl⟩
      | root | eos | token | opening | closing => simp [hrole] at hgroup
    exact (h.isClosed?_iff hnode hkind).1 (hclosed id node kind hnode hkind) hid
  · intro hnone id node kind hnode hkind
    rw [h.isClosed?_iff hnode hkind, hnone]
    exact List.not_mem_nil

/-- The last group that is not closed. -/
theorem exists_last_unclosed (h : document.Says content) {entry : Entry K}
    (hlast : content.forest.unclosed.getLast? = some entry) :
    ∃ id node, document.unclosed.getLast? = some id ∧ document.node? id = some node ∧
      node.entry = entry := by
  have hmap := congrArg List.getLast? h.map_unclosed
  rw [List.getLast?_map, List.getLast?_map, hlast, Option.map_some] at hmap
  obtain ⟨id, hid, hentry⟩ := Option.map_eq_some_iff.1 hmap
  obtain ⟨node, hnode, hentry⟩ := Option.map_eq_some_iff.1 hentry
  exact ⟨id, node, hid, hnode, hentry⟩

/-- The last group that is not closed is the innermost one that is open at the end. -/
theorem exists_innermost (h : document.Says content) {outer : List (Level (Entry K))}
    {level : Level (Entry K)}
    (hunclosed : content.forest.unclosed = ((level :: outer).map (·.label)).reverse) :
    ∃ id node, document.unclosed.getLast? = some id ∧ document.node? id = some node ∧
      node.entry = level.label := by
  refine h.exists_last_unclosed ?_
  rw [hunclosed, List.getLast?_reverse]
  rfl

end Document.Says

namespace Parser

variable {cut : Draft.Cut K} {sound : Draft K → Prop} {parser : Parser K M} {draft : Draft K}

/-- Makes a parser strict. -/
def beStrict (parser : Parser K M) : Parser K M := parser.mapOptions (·.withStrict true)

theorem Ready.beStrict (ready : parser.Ready draft) : parser.beStrict.Ready draft where
  clean := ready.clean
  follows :=
    ⟨ready.follows.inStep, ready.follows.spine, ready.follows.notes, ready.follows.location⟩
  done := ready.done

omit [DecidableEq K] in
/-- Where no group is open, being strict makes no difference. -/
theorem finish_beStrict (hopen : parser.state.nesting.innermost? = none) :
    parser.beStrict.finish.1 = parser.finish.1 := by
  have hstate (state : ParseState K) (h : state.nesting.innermost? = none) :
      finishState (state.mapOptions (·.withStrict true)) = finishState state := by
    rw [finishState, finishState, h, show (state.mapOptions _).nesting.innermost? = none from h]
    cases state.options.strict <;> rfl
  have hpoisoned : parser.beStrict.poisoned = parser.poisoned := rfl
  have hsame : parser.beStrict.state = parser.state.mapOptions (·.withStrict true) := rfl
  rw [finish, finish, guard, guard, hpoisoned, hsame]
  split
  · rfl
  · rw [hstate parser.state hopen]
    cases finishState parser.state <;> rfl

/-- **Finishing strictly agrees with finishing leniently.** The groups that the parser has open are
those of the document that are not closed. -/
theorem agrees_finish (ready : parser.Ready draft) (grouped : draft.Grouped)
    (lenient : parser.state.options.strict = false) :
    Agrees parser.finish.1 parser.beStrict.finish.1 := by
  have hlenient := finish_of_ready ready
  have hstrict := finish_of_ready ready.beStrict
  rw [Draft.finish, lenient] at hlenient
  obtain ⟨document, hdocument, hcontent⟩ := hlenient
  let eos : Entry K :=
    ⟨.eos, "", none, none, .point parser.state.location parser.state.options.sourceLabel⟩
  have hunclosed : (draft.zipper.forest ++ .leaf eos).unclosed =
      (draft.zipper.outer.map (·.label)).reverse := grouped.unclosed_forest_eos rfl
  have hclosed := hcontent.allClosed_iff
  rw [hunclosed, List.reverse_eq_nil_iff, List.map_eq_nil_iff] at hclosed
  cases houter : draft.zipper.outer with
  | nil =>
    have hopen : parser.state.nesting.innermost? = none := by
      have hroles := ready.follows.spine.roles
      rw [houter] at hroles
      exact List.head?_eq_none_iff.2 (List.map_eq_nil_iff.1 hroles.symm)
    rw [finish_beStrict hopen, hdocument]
    exact .of_allClosed (hclosed.2 houter)
  | cons level outer =>
    obtain ⟨kind, hkind⟩ := grouped.exists_kind houter
    have hnot : ¬ document.AllClosed := fun hall => by
      rw [hclosed.1 hall] at houter
      cases houter
    have hopen : draft.unclosed? = some (kind, level.label.span.start) := by
      rw [Draft.unclosed?, houter]
      simp [hkind, Role.kind?]
    obtain ⟨id, node, hid, hnode, hentry⟩ := hcontent.exists_innermost (houter ▸ hunclosed)
    have herror : parser.beStrict.finish.1 =
        .error (.failed (.at (.unterminated kind) document.label node.span.start)) := by
      rw [Draft.finish, hopen, ← hentry] at hstrict
      rw [hcontent.label]
      exact hstrict
    rw [herror, hdocument]
    exact .of_not_allClosed hnot hid hnode (hkind ▸ congrArg Entry.role hentry)

/-- **A strict parse agrees with a lenient one**, whatever the text is, for every fresh parser whose
handlers are plain and cut texts in some way. -/
theorem agrees_of_obeys (obeys : Obeys parser.handlers.toList cut sound) (hsound : sound {})
    (plain : ∀ handler ∈ parser.handlers.toList, handler.Plain) {options : ParserOptions}
    (fresh : parser.state = .fresh options) (clean : parser.poisoned = false)
    (lenient : options.strict = false) (text : String) :
    Agrees (parser.parse text).1 (parser.beStrict.parse text).1 := by
  have hoptions : parser.state.options = options := by
    rw [fresh]
    rfl
  have hlabel : KeepsLabel (·.withStrict true) := fun _ => rfl
  have hsame : parser.beStrict.feed text = Prod.map id beStrict (parser.feed text) :=
    feed_mapOptions hlabel plain rfl text
  have hfeed := feed_of_ready obeys.grouped (ready_of_fresh fresh clean)
    ⟨hsound, Draft.grouped_empty⟩ text
  cases hscan : ({} : Draft K).scan cut parser.state.options parser.state.location text.toList with
  | error error =>
    rw [hscan] at hfeed
    have hstrict : (parser.beStrict.feed text).1 = .error (.failed error) := by
      rw [hsame]
      exact hfeed
    rw [parse_of_feed_error hfeed, parse_of_feed_error hstrict]
    exact .of_failed _
  | ok result =>
    rw [hscan] at hfeed
    obtain ⟨⟨-, hgrouped⟩, state, hresult, hready, hkept, -, -⟩ := hfeed
    rw [hresult] at hsame
    rw [parse_of_feed_ok hresult, parse_of_feed_ok hsame]
    refine agrees_finish hready hgrouped ?_
    show state.options.strict = false
    rw [hkept, hoptions, lenient]

/-- **Strict mode agrees with the tree**, for every table whose rules match at the head of a text
only and for patterns, in either error mode. -/
theorem parse_strict :
    (∀ {K M : Type} [DecidableEq K] (table : Table K), table.HeadOnly →
      ∀ (options : ParserOptions) (memory : M) (text : String),
        Agrees ((ofTable table (options.withStrict false) memory).parse text).1
          ((ofTable table (options.withStrict true) memory).parse text).1) ∧
    ∀ (options : ParserOptions) (pattern : String),
      Agrees (Extglob.parse pattern (options.withStrict false))
        (Extglob.parse pattern (options.withStrict true)) := by
  have hlabel : KeepsLabel (·.withStrict true) := fun _ => rfl
  constructor
  · intro K M _ table headOnly options memory text
    have hstrict : ofTable table (options.withStrict true) memory =
        (ofTable table (options.withStrict false) memory).beStrict :=
      ofTable_mapOptions hlabel table (options.withStrict false) memory
    rw [hstrict]
    exact agrees_of_obeys (headOnly.obeys _ memory) trivial (table.plain _ memory)
      (state_ofTable ..) (poisoned_ofTable ..) rfl text
  · intro options pattern
    exact agrees_of_obeys Extglob.obeys_cut (Draft.linked_empty Extglob.Fits)
      (Extglob.plain_handlers _) rfl rfl rfl pattern

/-- Two groups are not closed here. The strict parse complains about the inner one, which is the
last in the document. -/
theorem parse_strict_unclosed :
    Table.words.HeadOnly ∧ ∃ document id node kind,
      ((ofTable Table.words {} ()).parse "é (a) (b\n<c").1 = .ok document ∧
      document.unclosed.getLast? = some id ∧ document.node? id = some node ∧
      node.role = .group kind ∧
      ((ofTable Table.words (ParserOptions.withStrict {} true) ()).parse "é (a) (b\n<c").1 =
        .error (.failed (.at (.unterminated kind) document.label node.span.start)) := by
  let lenient := ((ofTable Table.words {} ()).parse "é (a) (b\n<c").1
  let strict := ((ofTable Table.words (ParserOptions.withStrict {} true) ()).parse "é (a) (b\n<c").1
  have hagrees : Agrees lenient strict :=
    parse_strict.1 Table.words Table.headOnly_words {} () "é (a) (b\n<c"
  have hstrict : strict.isOk = false := by decide +kernel
  obtain ⟨document, hdocument⟩ := exists_of_isOk (show lenient.isOk = true by decide +kernel)
  have hnot : ¬ document.AllClosed := fun hall => by
    rw [(hagrees.ok_iff document).2 ⟨hdocument, hall⟩] at hstrict
    cases hstrict
  obtain ⟨id, node, kind, hlast, hnode, hrole, herror⟩ :=
    hagrees.unterminated document hdocument hnot
  exact ⟨Table.headOnly_words, document, id, node, kind, hdocument, hlast, hnode, hrole, herror⟩

end Parser

end GlobTree
