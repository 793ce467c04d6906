import GlobTree.Proofs.Extglob.Scanner
import GlobTree.Proofs.Parser.Groups
import GlobTree.Proofs.Parser.Keeping
import GlobTree.Proofs.Parser.Table
import Mathlib.Data.List.Chain
/-!
# Positions

The tokens of a document tile its source: in the order of the document, each of them starts where
the one before it ends, from the start of the source to its end. Groups and the end of the document
take up no place. `Document.Tiled` says so of a document with its nodes in order.

The entries of a draft tile the text that was read (`Tiles`), and the nodes of a document in order
have the entries of its forest. With the opening token at the head of every group, all positions
follow (`Document.Says.tiled`), for every parser whose handlers cut texts in some way
(`Parser.tiled_of_obeys`).
-/

namespace GlobTree

variable {K M : Type}

/-! ## Entries that tile a text -/

section Tiles

variable {label : String} {place : Location} {entry : Entry K} {entries : List (Entry K)}
  {text : List Char}

/-- The first entry takes up the first part of the text, which is empty if it stands for none. -/
theorem Tiles.exists_of_cons (h : Tiles label place (entry :: entries) text) :
    ∃ raw rest, text = raw ++ rest ∧ entry.raw = String.ofList raw ∧
      entry.span = .covering place raw label ∧ Tiles label (place.advance raw) entries rest := by
  rw [Tiles] at h
  split at h
  · obtain ⟨hraw, hspan, h⟩ := h
    refine ⟨[], text, rfl, hraw, ?_, ?_⟩
    · rw [hspan, Span.covering, Location.advance_nil]
      rfl
    · rwa [Location.advance_nil]
  · obtain ⟨raw, rest, htext, -, hraw, hspan, h⟩ := h
    exact ⟨raw, rest, htext, hraw, hspan, h⟩

/-- Entries that stand for no text can be left out. -/
theorem Tiles.filter (h : Tiles label place entries text) :
    Tiles label place (entries.filter fun entry => !entry.role.isStructural) text := by
  induction entries generalizing place text with
  | nil => exact h
  | cons entry entries ih =>
    rw [Tiles] at h
    rw [List.filter_cons]
    split at h
    next hrole =>
      rw [if_neg (by simp [hrole])]
      exact ih h.2.2
    next hrole =>
      obtain ⟨raw, rest, htext, hne, hraw, hspan, h⟩ := h
      rw [if_pos (by simpa using hrole), Tiles, if_neg hrole]
      exact ⟨raw, rest, htext, hne, hraw, hspan, ih h⟩

theorem Tiles.start_of_head? (h : Tiles label place entries text) :
    ∀ entry ∈ entries.head?, entry.span.start = place := by
  intro entry hentry
  obtain ⟨rest, rfl⟩ := List.head?_eq_some_iff.1 hentry
  obtain ⟨_, _, -, -, hspan, -⟩ := h.exists_of_cons
  rw [hspan]
  rfl

/-- **Every entry starts where the one before it stops.** -/
theorem Tiles.isChain (h : Tiles label place entries text) :
    entries.IsChain fun entry next => next.span.start = entry.span.stop := by
  induction entries generalizing place text with
  | nil => exact .nil
  | cons entry entries ih =>
    obtain ⟨raw, rest, -, -, hspan, h⟩ := h.exists_of_cons
    refine List.isChain_cons.2 ⟨fun next hnext => ?_, ih h⟩
    rw [h.start_of_head? next hnext, hspan]
    rfl

/-- **The last entry stops at the end of the text.** -/
theorem Tiles.stop_of_getLast? (h : Tiles label place entries text) :
    ∀ entry ∈ entries.getLast?, entry.span.stop = place.advance text := by
  induction entries generalizing place text with
  | nil => exact fun _ h => absurd h (Option.not_mem_none _)
  | cons entry entries ih =>
    obtain ⟨raw, rest, rfl, -, hspan, h⟩ := h.exists_of_cons
    intro last hlast
    cases entries with
    | nil =>
      obtain rfl : rest = [] := h
      obtain rfl : entry = last := Option.some.inj hlast
      rw [hspan, List.append_nil]
      rfl
    | cons other entries =>
      rw [List.getLast?_cons_cons] at hlast
      rw [ih h last hlast, Location.advance_append]

/-- **Every entry has its part of the text**, and its position is that of the part. -/
theorem Tiles.exists_of_mem (h : Tiles label place entries text) :
    ∀ entry ∈ entries, ∃ before raw rest, text = before ++ (raw ++ rest) ∧
      entry.raw = String.ofList raw ∧ entry.span = .covering (place.advance before) raw label := by
  induction entries generalizing place text with
  | nil => exact fun _ h => absurd h List.not_mem_nil
  | cons first entries ih =>
    obtain ⟨raw, rest, rfl, hraw, hspan, h⟩ := h.exists_of_cons
    intro entry hentry
    rcases List.mem_cons.1 hentry with rfl | hentry
    · exact ⟨[], raw, rest, rfl, hraw, by rw [hspan, Location.advance_nil]⟩
    · obtain ⟨before, own, after, rfl, hown, hspan'⟩ := ih h entry hentry
      refine ⟨raw ++ before, own, after, (List.append_assoc ..).symm, hown, ?_⟩
      rw [hspan', Location.advance_append]

theorem Tiles.join_raw (h : Tiles label place entries text) :
    String.join (entries.map (·.raw)) = String.ofList text := by
  induction entries generalizing place text with
  | nil =>
    obtain rfl : text = [] := h
    rfl
  | cons entry entries ih =>
    obtain ⟨raw, rest, rfl, hraw, -, h⟩ := h.exists_of_cons
    rw [List.map_cons, String.join_cons, hraw, ih h, String.ofList_append]

end Tiles

/-! ## Documents whose positions tile the source -/

/-- The nodes of a document in its order, without the root. -/
def Document.inOrder (document : Document K) : List (Node K) :=
  document.order.filterMap document.node?

/-- The nodes of a document that stand for text, in order: tokens and the two ends of groups. -/
def Document.textual (document : Document K) : List (Node K) :=
  document.inOrder.filter fun node => !node.role.isStructural

/-- The positions of a document tile its source. -/
structure Document.Tiled (document : Document K) : Prop where
  /-- All numbers in order have a node. -/
  inOrder : ∀ id ∈ document.order, ∃ node, document.node? id = some node
  /-- The first node that stands for text starts at the start. -/
  first : ∀ node ∈ document.textual.head?, node.span.start = .start
  /-- Each of them starts where the one before it stops. -/
  next : document.textual.IsChain fun node next => next.span.start = node.span.stop
  /-- The last one stops at the end of the source. -/
  last : ∀ node ∈ document.textual.getLast?,
    node.span.stop = Location.start.advance document.source.toList
  /-- Each of them has some text and covers just that, and the text is its part of the source. -/
  own : ∀ node ∈ document.textual, node.raw ≠ "" ∧
    node.span.stop = node.span.start.advance node.raw.toList ∧
      document.slice? node.span.start.offset node.span.stop.offset = some node.raw
  /-- Together they are the source. -/
  whole : String.join (document.textual.map (·.raw)) = document.source
  /-- A group is an empty stretch where its first child, the opening token, starts. -/
  group : ∀ node ∈ document.inOrder, ∀ kind, node.role = .group kind → ∃ id opening,
    node.children[0]? = some id ∧ document.node? id = some opening ∧
      opening.role = .opening kind ∧ node.span = .point opening.span.start document.label
  /-- The end is an empty stretch at the end of the source. -/
  eos : ∀ node ∈ document.inOrder, node.role = .eos →
    node.span = .point (Location.start.advance document.source.toList) document.label
  /-- All positions are in the source of the document. -/
  label : ∀ id node, document.node? id = some node → node.span.source = document.label
  /-- No node starts before the one before it stops. -/
  ordered : document.inOrder.IsChain fun node next =>
    (compare node.span.stop next.span.start).isLE

/-! ## From the entries to the nodes -/

/-- What holds of a forest whose trees have their opening tokens first, and of the end after it. -/
def Sprouts (stop : Location) (label : String) (entry : Entry K) (below : Forest (Entry K)) : Prop :=
  (entry.role = .eos → entry.span = .point stop label) ∧
    ∀ kind, entry.role = .group kind → Draft.Opens kind entry below

namespace Document.Says

variable {document : Document K} {content : Content K}

/-- The nodes in order have the entries of the forest in preorder. -/
theorem map_entry_inOrder (h : document.Says content) :
    document.inOrder.map Node.entry = content.forest.preorder := by
  obtain ⟨root, -, -, -, hlaid, -⟩ := h.spine.exists_root
  have horder : document.order = List.range' 1 content.forest.size := h.spine.order_eq
  rw [inOrder, horder, hlaid.map_entry]

/-- Every node in order is stored, and so is the part of the forest below it. -/
theorem exists_below {P : Entry K → Forest (Entry K) → Prop} (h : document.Says content)
    (each : content.forest.Each P) {node : Node K} (hnode : node ∈ document.inOrder) :
    ∃ id below, document.node? id = some node ∧ node.children.toList = below.ids (id + 1) ∧
      below.LaidAt document.toArena id (id + 1) ∧ P node.entry below := by
  obtain ⟨root, -, -, -, hlaid, -⟩ := h.spine.exists_root
  have horder : document.order = List.range' 1 content.forest.size := h.spine.order_eq
  obtain ⟨id, hid, hfound⟩ := List.mem_filterMap.1 hnode
  rw [horder] at hid
  obtain ⟨other, below, hother, hrest⟩ := hlaid.exists_below each hid
  obtain rfl := Option.some.inj (hfound.symm.trans hother)
  exact ⟨id, below, hother, hrest⟩

/-- The entries of the nodes that stand for text tile the source. -/
theorem tiles_textual (h : document.Says content)
    (tiles : Tiles content.label .start content.forest.preorder content.source.toList) :
    Tiles content.label .start (document.textual.map Node.entry) content.source.toList := by
  have hfilter := tiles.filter
  rwa [← h.map_entry_inOrder, List.filter_map] at hfilter

/-- A group is an empty stretch where its opening token starts. -/
theorem span_of_opens {id : NodeId} {node : Node K} {below : Forest (Entry K)} {kind : K}
    (hchildren : node.children.toList = below.ids (id + 1))
    (laid : below.LaidAt document.toArena id (id + 1)) (opens : Draft.Opens kind node.entry below) :
    ∃ first opening, node.children[0]? = some first ∧ document.node? first = some opening ∧
      opening.role = .opening kind ∧ node.span = .point opening.span.start opening.span.source := by
  obtain ⟨entry, rest, rfl, hrole, hspan⟩ := opens
  obtain ⟨⟨opening, hopening, rfl, -, -⟩, -, -⟩ := laid
  refine ⟨id + 1, opening, ?_, hopening, hrole, hspan⟩
  rw [← Array.getElem?_toList, hchildren]
  rfl

/-- **The positions of a document tile its source** if its entries do and every group has its
opening token first. -/
theorem tiled (h : document.Says content)
    (tiles : Tiles content.label .start content.forest.preorder content.source.toList)
    (each : content.forest.Each
      (Sprouts (Location.start.advance content.source.toList) content.label))
    (root : ∀ node, document.node? rootId = some node → node.span.source = content.label) :
    document.Tiled := by
  have htextual := h.tiles_textual tiles
  have hentry : ∀ node ∈ document.inOrder, ∃ before raw rest,
      document.source.toList = before ++ (raw ++ rest) ∧ node.raw = String.ofList raw ∧
        node.span = .covering (Location.start.advance before) raw document.label := by
    intro node hnode
    rw [h.source, h.label]
    exact tiles.exists_of_mem node.entry (h.map_entry_inOrder ▸ List.mem_map_of_mem hnode)
  have hlabel : ∀ id node, document.node? id = some node → node.span.source = document.label := by
    intro id node hnode
    by_cases hid : id = rootId
    · rw [hid] at hnode
      exact (root node hnode).trans h.label.symm
    · have hmem : node ∈ document.inOrder :=
        List.mem_filterMap.2 ⟨id, h.spine.mem_order hnode hid, hnode⟩
      obtain ⟨_, _, _, -, -, hspan⟩ := hentry node hmem
      rw [hspan]
      rfl
  have hchain : document.inOrder.IsChain fun node next => next.span.start = node.span.stop := by
    have hentries := tiles.isChain
    rwa [← h.map_entry_inOrder, List.isChain_map] at hentries
  constructor
  case inOrder =>
    intro id hid
    obtain ⟨root, -, -, -, hlaid, -⟩ := h.spine.exists_root
    rw [show document.order = _ from h.spine.order_eq] at hid
    obtain ⟨node, -, hnode, -⟩ := hlaid.exists_below each hid
    exact ⟨node, hnode⟩
  case first =>
    intro node hnode
    have hfirst := htextual.start_of_head? node.entry
    rw [List.head?_map] at hfirst
    exact hfirst (Option.mem_map_of_mem _ hnode)
  case next =>
    have hnext := htextual.isChain
    rwa [List.isChain_map] at hnext
  case last =>
    intro node hnode
    have hlast := htextual.stop_of_getLast? node.entry
    rw [List.getLast?_map, ← h.source] at hlast
    exact hlast (Option.mem_map_of_mem _ hnode)
  case own =>
    intro node hnode
    obtain ⟨hordered, hrole⟩ := List.mem_filter.1 hnode
    have htext : ¬ node.entry.role.isStructural := by
      rw [show node.entry.role = node.role from rfl]
      simpa using hrole
    have hne : node.raw ≠ "" :=
      htextual.raw_ne_empty node.entry (List.mem_map_of_mem hnode) htext
    obtain ⟨before, raw, rest, hsource, hraw, hspan⟩ := hentry node hordered
    refine ⟨hne, ?_, ?_⟩
    · rw [hraw, hspan, String.toList_ofList]
      rfl
    · have hslice := sliceBytes?_append before raw rest
      rw [Document.slice?, hsource, hspan]
      simp [Span.covering, hslice, hraw]
  case whole =>
    have hjoin := htextual.join_raw
    rw [List.map_map, String.ofList_toList, ← h.source] at hjoin
    exact hjoin
  case group =>
    intro node hnode kind hkind
    obtain ⟨id, below, -, hchildren, hlaid, -, hopens⟩ := h.exists_below each hnode
    obtain ⟨first, opening, hfirst, hopening, hrole, hspan⟩ :=
      span_of_opens hchildren hlaid (hopens kind hkind)
    exact ⟨first, opening, hfirst, hopening, hrole, hlabel _ _ hopening ▸ hspan⟩
  case eos =>
    intro node hnode heos
    obtain ⟨_, _, -, -, -, hspan, -⟩ := h.exists_below each hnode
    rw [h.source, h.label]
    exact hspan heos
  case label => exact hlabel
  case ordered =>
    refine hchain.imp fun node next hsame => ?_
    rw [hsame, Location.compare_self]
    rfl

end Document.Says

/-! ## The positions of parsed documents -/

namespace Parser

variable [DecidableEq K] {cut : Draft.Cut K} {sound : Draft K → Prop} {parser : Parser K M}

theorem feedAll_keeps (parser : Parser K M) (chunks : List String) :
    ∃ notes, parser.state.Keeps notes (parser.feedAll chunks).2.state := by
  induction chunks generalizing parser with
  | nil => exact ⟨[], .refl _⟩
  | cons chunk chunks ih =>
    obtain ⟨notes, hfeed⟩ := parser.feed_keeps chunk
    rw [feedAll]
    split
    next next h =>
      rw [h] at hfeed
      exact hfeed.then (ih next)
    next h =>
      rw [h] at hfeed
      exact ⟨notes, hfeed⟩

omit [DecidableEq K] in
/-- The groups of a finished draft sprout, and the end comes after them. -/
theorem sprouts_of_grouped {draft : Draft K} (grouped : draft.Grouped) (stop : Location)
    (label : String) :
    (draft.zipper.forest ++ .leaf ⟨.eos, "", none, none, .point stop label⟩).Each
      (Sprouts stop label) := by
  refine Forest.each_append.2 ⟨grouped.headed.mono fun entry below h => ?_, ?_, trivial, trivial⟩
  · exact ⟨fun heos => absurd heos h.1, h.2⟩
  · exact ⟨fun _ => rfl, fun kind h => by cases h⟩

/-- **The positions of every document tile its source**, if a fresh parser whose handlers cut texts
in some way is fed with chunks and finishes with the document. The source is all chunks together. -/
theorem tiled_of_obeys (obeys : Obeys parser.handlers.toList cut sound) (hsound : sound {})
    {options : ParserOptions} (fresh : parser.state = .fresh options)
    (clean : parser.poisoned = false) {chunks : List String} {document : Document K}
    (fed : (parser.feedAll chunks).1 = .ok ())
    (finished : (parser.feedAll chunks).2.finish.1 = .ok document) :
    document.source = String.join chunks ∧ document.label = options.sourceLabel ∧
      document.Tiled := by
  have hlabel : parser.state.label = options.sourceLabel := by
    rw [fresh]
    rfl
  have hconsumed : parser.state.consumed = [] := by
    rw [fresh]
    rfl
  have hempty : ({} : Draft K).Covers parser.state.label parser.state.consumed := by
    rw [hconsumed]
    exact Draft.covers_empty _
  obtain ⟨draft, hready, ⟨-, hgrouped⟩, hoptions, htext, hcovers⟩ :=
    covers_feedAll obeys.grouped (ready_of_fresh fresh clean) ⟨hsound, Draft.grouped_empty⟩ hempty
      fed
  have hlast : (parser.feedAll chunks).2.state.label = parser.state.label :=
    congrArg ParserOptions.sourceLabel hoptions
  rw [← hlast] at hcovers
  obtain ⟨hcontent, htiles, -⟩ := covers_finish hready hcovers finished
  have hplace := hready.follows.location
  rw [hconsumed, List.nil_append, ← String.toList_join] at htext
  rw [show (parser.feedAll chunks).2.state.consumed = _ from htext, String.ofList_toList] at hcontent
  rw [show (parser.feedAll chunks).2.state.consumed = _ from htext] at htiles hplace
  refine ⟨hcontent.source, hcontent.label.trans (hlast.trans hlabel), hcontent.tiled htiles ?_ ?_⟩
  · rw [hplace]
    exact sprouts_of_grouped hgrouped _ _
  · intro root hroot
    have hfirst : parser.state.arena.node? rootId =
        some { role := .root, raw := "", span := .point .start options.sourceLabel } := by
      rw [fresh]
      rfl
    obtain ⟨_, hkeeps⟩ := parser.feedAll_keeps chunks
    obtain ⟨_, hkept⟩ := hkeeps.nodes hfirst
    obtain ⟨_, hkept⟩ := node?_of_finish finished hkept
    obtain rfl := Option.some.inj (hroot.symm.trans hkept)
    exact (hlast.trans hlabel).symm

/-- **Positions tile the source**, for every table whose rules match at the head of a text only and
for the parser of patterns, and however the text is cut into chunks. -/
theorem tiled_of_feedAll :
    (∀ {K M : Type} [DecidableEq K] (table : Table K), table.HeadOnly →
      ∀ (options : ParserOptions) (memory : M) (chunks : List String) (document : Document K),
        ((ofTable table options memory).feedAll chunks).1 = .ok () →
        ((ofTable table options memory).feedAll chunks).2.finish.1 = .ok document →
        document.source = String.join chunks ∧ document.label = options.sourceLabel ∧
          document.Tiled) ∧
    ∀ (options : ParserOptions) (chunks : List String) (document : Document Extglob.Kind),
      ((Extglob.parser options).feedAll chunks).1 = .ok () →
      ((Extglob.parser options).feedAll chunks).2.finish.1 = .ok document →
      document.source = String.join chunks ∧ document.label = options.sourceLabel ∧
        document.Tiled := by
  constructor
  · intro K M _ table headOnly options memory chunks document fed finished
    exact tiled_of_obeys (headOnly.obeys options memory) trivial (state_ofTable ..)
      (poisoned_ofTable ..) fed finished
  · intro options chunks document fed finished
    exact tiled_of_obeys Extglob.obeys_cut (Draft.linked_empty Extglob.Fits) rfl rfl fed finished

/-- Texts in two chunks, with groups that are not closed, letters of two bytes and two lines. -/
theorem tiled_of_feedAll_unclosed :
    let words := (ofTable Table.words {} ()).feedAll ["é (a\n", "<b"]
    let pattern := (Extglob.parser {}).feedAll ["ä@(", "\n|[!"]
    (Table.words.HeadOnly ∧ words.1 = .ok () ∧ ∃ document, words.2.finish.1 = .ok document ∧
      document.source = "é (a\n<b" ∧ document.Tiled) ∧
    pattern.1 = .ok () ∧ ∃ document, pattern.2.finish.1 = .ok document ∧
      document.source = "ä@(\n|[!" ∧ document.Tiled := by
  intro words pattern
  obtain ⟨_, hwords⟩ := exists_of_isOk (show words.1.isOk = true by decide +kernel)
  obtain ⟨first, hfirst⟩ := exists_of_isOk (show words.2.finish.1.isOk = true by decide +kernel)
  obtain ⟨_, hpattern⟩ := exists_of_isOk (show pattern.1.isOk = true by decide +kernel)
  obtain ⟨second, hsecond⟩ := exists_of_isOk (show pattern.2.finish.1.isOk = true by decide +kernel)
  obtain ⟨hsource, -, htiled⟩ :=
    tiled_of_feedAll.1 Table.words Table.headOnly_words _ _ _ _ hwords hfirst
  obtain ⟨hsource', -, htiled'⟩ := tiled_of_feedAll.2 _ _ _ hpattern hsecond
  exact ⟨⟨Table.headOnly_words, hwords, first, hfirst, hsource, htiled⟩,
    hpattern, second, hsecond, hsource', htiled'⟩

end Parser

end GlobTree
