import GlobTree.Proofs.Parser.Work
/-!
# The entries of a draft tile the text

In the order of a document, every token starts where the one before it ends, and the texts of all
tokens make up the text that was read. `Tiles` says so of a list of entries. Nodes that stand for no
text take up no place.

Putting a piece of text adds entries that tile it (`tiles_newEntries`), so that scanning a text adds
entries that tile the text (`Draft.Covers.scan`). The text may also come in chunks
(`Parser.covers_feedAll`), and the end of the text adds an entry without a text
(`Parser.covers_finish`).
-/

namespace GlobTree

variable {K : Type}

/-- Entries cover a text from a place on, without a gap and in order. -/
def Tiles (label : String) : Location → List (Entry K) → List Char → Prop
  | _, [], text => text = []
  | place, entry :: entries, text =>
    if entry.role.isStructural then
      entry.raw = "" ∧ entry.span = .point place label ∧ Tiles label place entries text
    else ∃ raw rest, text = raw ++ rest ∧ raw ≠ [] ∧ entry.raw = String.ofList raw ∧
      entry.span = .covering place raw label ∧ Tiles label (place.advance raw) entries rest

theorem Tiles.append {label : String} {place : Location} {entries more : List (Entry K)}
    {text rest : List Char} (h : Tiles label place entries text)
    (hmore : Tiles label (place.advance text) more rest) :
    Tiles label place (entries ++ more) (text ++ rest) := by
  induction entries generalizing place text with
  | nil =>
    obtain rfl : text = [] := h
    rwa [Location.advance_nil] at hmore
  | cons entry entries ih =>
    rw [List.cons_append]
    rw [Tiles] at h ⊢
    split at h
    next hrole =>
      rw [if_pos hrole]
      obtain ⟨hraw, hspan, h⟩ := h
      exact ⟨hraw, hspan, ih h hmore⟩
    next hrole =>
      rw [if_neg hrole]
      obtain ⟨raw, tail, rfl, hne, hraw, hspan, h⟩ := h
      rw [Location.advance_append] at hmore
      exact ⟨raw, tail ++ rest, List.append_assoc .., hne, hraw, hspan, ih h hmore⟩

/-- An entry that stands for no text has none. -/
theorem Tiles.quiet {label : String} {place : Location} {entries : List (Entry K)}
    {text : List Char} (h : Tiles label place entries text) :
    ∀ entry ∈ entries, entry.role.isStructural → entry.raw = "" := by
  induction entries generalizing place text with
  | nil => exact fun _ h => absurd h List.not_mem_nil
  | cons first entries ih =>
    intro entry hentry hrole
    rw [Tiles] at h
    rcases List.mem_cons.1 hentry with rfl | hentry
    · rw [if_pos hrole] at h
      exact h.1
    · split at h
      next => exact ih h.2.2 entry hentry hrole
      next =>
        obtain ⟨_, _, _, _, _, _, h⟩ := h
        exact ih h entry hentry hrole

/-- An entry that stands for text has some. -/
theorem Tiles.raw_ne_empty {label : String} {place : Location} {entries : List (Entry K)}
    {text : List Char} (h : Tiles label place entries text) :
    ∀ entry ∈ entries, ¬ entry.role.isStructural → entry.raw ≠ "" := by
  induction entries generalizing place text with
  | nil => exact fun _ h => absurd h List.not_mem_nil
  | cons first entries ih =>
    intro entry hentry hrole
    rw [Tiles] at h
    rcases List.mem_cons.1 hentry with rfl | hentry
    · rw [if_neg hrole] at h
      obtain ⟨raw, _, _, hne, hraw, _, _⟩ := h
      rw [hraw]
      exact fun hempty => hne (String.ofList_eq_empty_iff.1 hempty)
    · split at h
      next => exact ih h.2.2 entry hentry hrole
      next =>
        obtain ⟨_, _, _, _, _, _, h⟩ := h
        exact ih h entry hentry hrole

namespace Draft

/-- The entries of a draft in the order of the document. -/
def entries (draft : Draft K) : List (Entry K) := draft.zipper.forest.preorder

/-- The entries that a piece of text leads to. -/
def newEntries (use : Use K) (raw : List Char) (place : Location) (label : String) :
    List (Entry K) :=
  match use with
  | .token kind _ => [entryOf (.token kind) raw place label]
  | .opening kind lead =>
    [groupOf kind lead place label, entryOf (.opening kind) raw place label]
  | .closing kind trail => [{ entryOf (.closing kind) raw place label with trail := trail }]

/-- The entries that a piece of text leads to tile it. -/
theorem tiles_newEntries (use : Use K) {raw : List Char} (hraw : raw ≠ []) (place : Location)
    (label : String) : Tiles label place (newEntries use raw place label) raw := by
  have hlast : raw = raw ++ [] := (List.append_nil raw).symm
  cases use with
  | token kind complaint => exact ⟨raw, [], hlast, hraw, rfl, rfl, rfl⟩
  | opening kind lead => exact ⟨rfl, rfl, raw, [], hlast, hraw, rfl, rfl, rfl⟩
  | closing kind trail => exact ⟨raw, [], hlast, hraw, rfl, rfl, rfl⟩

variable [DecidableEq K]

/-- A token is added at the place, whether there is a complaint about it or not. -/
theorem zipper_of_put_token {draft next : Draft K} {options : ParserOptions} {place : Location}
    {kind : K} {complaint : Option String} {raw : List Char}
    (h : draft.put options place (.token kind complaint) raw = .ok next) :
    next.zipper = draft.zipper.add (entryOf (.token kind) raw place options.sourceLabel) := by
  cases complaint with
  | none =>
    cases h
    rfl
  | some complaint =>
    rw [put] at h
    cases hmode : options.errorMode <;> rw [hmode] at h <;> cases h
    rfl

/-- **Putting a piece of text adds its entries and changes no other.** -/
theorem entries_put {draft next : Draft K} {options : ParserOptions} {place : Location}
    {use : Use K} {raw : List Char} (h : draft.put options place use raw = .ok next) :
    next.entries = draft.entries ++ newEntries use raw place options.sourceLabel := by
  cases use with
  | token kind complaint =>
    rw [entries, zipper_of_put_token h, Zipper.preorder_add]
    rfl
  | opening kind lead =>
    cases h
    rw [entries, Zipper.preorder_add, Zipper.preorder_descend, List.append_assoc]
    rfl
  | closing kind trail =>
    rw [put] at h
    split at h
    next =>
      cases h
      rw [entries, Zipper.forest_ascend, Zipper.preorder_add]
      rfl
    next => cases h

/-- **What every piece of text keeps, a whole text keeps.** -/
theorem scan_induction {cut : Cut K} {options : ParserOptions}
    {P : Draft K → Location → List Char → Prop}
    (step : ∀ {draft next : Draft K} {place : Location} {c : Char} {cs : List Char} {use : Use K}
      {more : Nat}, P draft place (c :: cs) → cut draft.innermost? c cs = some (use, more) →
      draft.put options place use (c :: cs.take more) = .ok next →
      P next (place.advance (c :: cs.take more)) (cs.drop more))
    {draft next : Draft K} {place stop : Location} {text : List Char} (h : P draft place text)
    (hscan : draft.scan cut options place text = .ok (next, stop)) : P next stop [] := by
  induction hlength : text.length using Nat.strongRecOn generalizing draft place text with
  | ind n ih =>
    cases text with
    | nil =>
      rw [scan] at hscan
      cases hscan
      exact h
    | cons c cs =>
      rw [scan] at hscan
      cases hcut : cut draft.innermost? c cs with
      | none => simp [hcut] at hscan
      | some piece =>
        obtain ⟨use, more⟩ := piece
        cases hput : draft.put options place use (c :: cs.take more) with
        | error error => simp [hcut, hput] at hscan
        | ok middle =>
          simp only [hcut, hput] at hscan
          have hshorter : (cs.drop more).length < n := by
            rw [← hlength, List.length_drop, List.length_cons]
            omega
          exact ih _ hshorter (step h hcut hput) hscan rfl

/-- The entry is one of a group. -/
def IsGroup (entry : Entry K) : Prop := ∃ kind, entry.role = .group kind

/-- Every entry of a draft stands in a relation to the one above it, and groups are open only. -/
structure Linked (R : Option (Entry K) → Entry K → Prop) (draft : Draft K) : Prop where
  zipper : draft.zipper.Linked R
  opened : ∀ level ∈ draft.zipper.outer, IsGroup level.label

/-- The entries that a piece of text leads to stand in a relation to those above them. -/
def NewLinks (R : Option (Entry K) → Entry K → Prop) (above : Option (Entry K)) (use : Use K)
    (raw : List Char) (place : Location) (label : String) : Prop :=
  match use with
  | .token kind _ => R above (entryOf (.token kind) raw place label)
  | .opening kind lead =>
    R above (groupOf kind lead place label) ∧
      R (some (groupOf kind lead place label)) (entryOf (.opening kind) raw place label)
  | .closing kind trail =>
    R above { entryOf (.closing kind) raw place label with trail := trail }

/-- **Putting a piece of text links its entries and no other.** -/
theorem Linked.put {R : Option (Entry K) → Entry K → Prop} {draft next : Draft K}
    {options : ParserOptions} {place : Location} {use : Use K} {raw : List Char}
    (linked : draft.Linked R) (h : draft.put options place use raw = .ok next)
    (new : NewLinks R (Zipper.above? draft.zipper.outer) use raw place options.sourceLabel) :
    next.Linked R := by
  cases use with
  | token kind complaint =>
    constructor <;> rw [zipper_of_put_token h]
    · exact linked.zipper.add new
    · exact linked.opened
  | opening kind lead =>
    cases h
    refine ⟨(linked.zipper.descend new.1).add new.2, fun level hlevel => ?_⟩
    rcases List.mem_cons.1 hlevel with rfl | hlevel
    · exact ⟨kind, rfl⟩
    · exact linked.opened level hlevel
  | closing kind trail =>
    rw [Draft.put] at h
    split at h
    next =>
      cases h
      refine ⟨(linked.zipper.add new).ascend, fun level hlevel => linked.opened level ?_⟩
      rw [Zipper.ascend, Zipper.add] at hlevel
      cases houter : draft.zipper.outer with
      | nil =>
        rw [houter] at hlevel
        exact hlevel
      | cons head outer =>
        rw [houter] at hlevel
        exact List.mem_cons_of_mem _ hlevel
    next => cases h

/-- Where entries can stand: tokens and groups anywhere, the end at the top, and the delimiters of
a group directly below it. -/
def Placed (above : Option (Entry K)) (entry : Entry K) : Prop :=
  match above with
  | none => (∃ kind, entry.role = .token kind) ∨ IsGroup entry ∨ entry.role = .eos
  | some above => ∃ group, above.role = .group group ∧
    ((∃ kind, entry.role = .token kind) ∨ IsGroup entry ∨ entry.role = .opening group ∨
      entry.role = .closing group)

omit [DecidableEq K] in
/-- Only groups have others below them. -/
theorem eq_nil_of_placed {above : Entry K} {below : Forest (Entry K)}
    (placed : below.Linked Placed (some above)) (h : ¬ IsGroup above) : below = .nil := by
  cases below with
  | nil => rfl
  | cons entry =>
    obtain ⟨⟨kind, hkind, -⟩, -⟩ := placed
    exact absurd ⟨kind, hkind⟩ h

omit [DecidableEq K] in
/-- What is open is a group of the innermost kind. -/
theorem Linked.above? {R : Option (Entry K) → Entry K → Prop} {draft : Draft K}
    (linked : draft.Linked R) :
    Zipper.above? draft.zipper.outer = none ∨ ∃ above kind,
      Zipper.above? draft.zipper.outer = some above ∧ above.role = .group kind ∧
        draft.innermost? = some kind := by
  have hopened := linked.opened
  rw [innermost?, Zipper.above?]
  cases houter : draft.zipper.outer with
  | nil => exact .inl rfl
  | cons level outer =>
    obtain ⟨kind, hkind⟩ := hopened level (by rw [houter]; exact List.mem_cons_self)
    refine .inr ⟨level.label, kind, rfl, hkind, ?_⟩
    rw [List.head?_cons, Option.bind_some, hkind]
    rfl

theorem newLinks_placed {draft next : Draft K} {options : ParserOptions} {place : Location}
    {use : Use K} {raw : List Char} (linked : draft.Linked Placed)
    (h : draft.put options place use raw = .ok next) :
    NewLinks Placed (Zipper.above? draft.zipper.outer) use raw place options.sourceLabel := by
  rcases linked.above? with habove | ⟨above, group, habove, hgroup, hinnermost⟩
  · rw [habove]
    cases use with
    | token kind complaint => exact .inl ⟨kind, rfl⟩
    | opening kind lead => exact ⟨.inr (.inl ⟨kind, rfl⟩), kind, rfl, .inr (.inr (.inl rfl))⟩
    | closing kind trail =>
      have hnone : draft.innermost? = none := by
        rw [innermost?]
        rw [Zipper.above?, Option.map_eq_none_iff] at habove
        rw [habove]
        rfl
      rw [put, hnone] at h
      cases h
  · rw [habove]
    cases use with
    | token kind complaint => exact ⟨group, hgroup, .inl ⟨kind, rfl⟩⟩
    | opening kind lead =>
      exact ⟨⟨group, hgroup, .inr (.inl ⟨kind, rfl⟩)⟩, kind, rfl, .inr (.inr (.inl rfl))⟩
    | closing kind trail =>
      rw [put, hinnermost] at h
      split at h
      next hkind =>
        obtain rfl := Option.some.inj hkind
        exact ⟨group, hgroup, .inr (.inr (.inr rfl))⟩
      next => cases h

/-- A draft covers a text: its entries tile the text, and all stand where they can. -/
structure Covers (draft : Draft K) (label : String) (text : List Char) : Prop where
  tiles : Tiles label .start draft.entries text
  placed : draft.Linked Placed

omit [DecidableEq K] in
theorem linked_empty (R : Option (Entry K) → Entry K → Prop) : ({} : Draft K).Linked R :=
  ⟨⟨trivial, trivial⟩, fun _ h => absurd h List.not_mem_nil⟩

omit [DecidableEq K] in
theorem covers_empty (label : String) : ({} : Draft K).Covers label [] :=
  ⟨rfl, linked_empty Placed⟩

/-- **Scanning on covers more of the text.** -/
theorem Covers.scan {cut : Cut K} {options : ParserOptions} {draft next : Draft K}
    {place stop : Location} {before text : List Char}
    (h : draft.Covers options.sourceLabel before)
    (hplace : place = Location.start.advance before)
    (hscan : draft.scan cut options place text = .ok (next, stop)) :
    next.Covers options.sourceLabel (before ++ text) := by
  let P (draft : Draft K) (place : Location) (rest : List Char) : Prop :=
    ∃ read, before ++ text = read ++ rest ∧ place = Location.start.advance read ∧
      draft.Covers options.sourceLabel read
  have hend : P next stop [] := by
    refine scan_induction ?_ (⟨before, rfl, hplace, h⟩ : P draft place text) hscan
    rintro draft next place c cs use more ⟨read, hread, rfl, hcovers⟩ - hput
    refine ⟨read ++ (c :: cs.take more), ?_, (Location.advance_append ..).symm, ?_, ?_⟩
    · rw [hread, List.append_assoc, List.cons_append, List.take_append_drop]
    · rw [entries_put hput]
      exact hcovers.tiles.append (tiles_newEntries use (List.cons_ne_nil _ _) _ _)
    · exact hcovers.placed.put hput (newLinks_placed hcovers.placed hput)
  obtain ⟨read, hread, -, hcovers⟩ := hend
  rw [List.append_nil] at hread
  rwa [hread]

end Draft

namespace Parser

variable {M : Type} [DecidableEq K] {cut : Draft.Cut K} {sound : Draft K → Prop}
  {parser : Parser K M} {draft : Draft K}

/-- Feeds one chunk after the other, up to the first that fails. -/
def feedAll (parser : Parser K M) : List String → Except (ParseStop K) Unit × Parser K M
  | [] => (.ok (), parser)
  | chunk :: chunks =>
    match parser.feed chunk with
    | (.ok (), parser) => parser.feedAll chunks
    | (.error stop, parser) => (.error stop, parser)

/-- The first chunks are read if all are. -/
theorem feedAll_ok_of_append {earlier later : List String}
    (fed : (parser.feedAll (earlier ++ later)).1 = .ok ()) :
    (parser.feedAll earlier).1 = .ok () := by
  induction earlier generalizing parser with
  | nil => rfl
  | cons chunk earlier ih =>
    rw [List.cons_append, feedAll] at fed
    rw [feedAll]
    split at fed
    next => exact ih fed
    next => cases fed

/-- **Chunks that come later are fed to the parser that read the first ones.** -/
theorem feedAll_append {earlier : List String} (fed : (parser.feedAll earlier).1 = .ok ())
    (later : List String) :
    parser.feedAll (earlier ++ later) = (parser.feedAll earlier).2.feedAll later := by
  induction earlier generalizing parser with
  | nil => rfl
  | cons chunk earlier ih =>
    rw [feedAll] at fed ⊢
    rw [List.cons_append, feedAll]
    split at fed
    next => exact ih fed
    next => cases fed

/-- **However a text is cut into chunks, the draft covers it.** -/
theorem covers_feedAll (obeys : Obeys parser.handlers.toList cut sound) (ready : parser.Ready draft)
    (hsound : sound draft) (covers : draft.Covers parser.state.label parser.state.consumed)
    {chunks : List String} (fed : (parser.feedAll chunks).1 = .ok ()) :
    let last := (parser.feedAll chunks).2
    ∃ next, last.Ready next ∧ sound next ∧ last.state.options = parser.state.options ∧
      last.state.consumed = parser.state.consumed ++ chunks.flatMap String.toList ∧
      next.Covers parser.state.label last.state.consumed := by
  induction chunks generalizing parser draft with
  | nil => exact ⟨draft, ready, hsound, rfl, (List.append_nil _).symm, covers⟩
  | cons chunk chunks ih =>
    have hfeed := feed_of_ready obeys ready hsound chunk
    cases hscan : draft.scan cut parser.state.options parser.state.location chunk.toList with
    | error error =>
      rw [hscan] at hfeed
      generalize hresult : parser.feed chunk = result at hfeed
      obtain ⟨outcome, failed⟩ := result
      obtain rfl : outcome = .error (.failed error) := hfeed
      rw [feedAll, hresult] at fed
      cases fed
    | ok result =>
      rw [hscan] at hfeed
      obtain ⟨hsound', state, hresult, hready, hoptions, -, hconsumed⟩ := hfeed
      let parser' : Parser K M := { parser with state := state }
      have hobeys : Obeys parser'.handlers.toList cut sound := obeys
      have hall : parser.feedAll (chunk :: chunks) = parser'.feedAll chunks := by
        rw [feedAll, hresult]
      have hlabel : parser'.state.label = parser.state.label :=
        congrArg ParserOptions.sourceLabel hoptions
      have hcovers : result.1.Covers parser'.state.label parser'.state.consumed := by
        rw [hlabel, show parser'.state.consumed = _ from hconsumed]
        exact covers.scan ready.follows.location hscan
      rw [hall] at fed ⊢
      obtain ⟨next, hnext, hsound'', hoptions', hconsumed', hcovers'⟩ :=
        ih hobeys hready hsound' hcovers fed
      refine ⟨next, hnext, hsound'', hoptions'.trans hoptions, ?_, hlabel ▸ hcovers'⟩
      rw [hconsumed', List.flatMap_cons, ← List.append_assoc]
      exact congrArg (· ++ _) hconsumed

/-- **The entries of a finished document tile its text.** -/
theorem covers_finish (ready : parser.Ready draft)
    (covers : draft.Covers parser.state.label parser.state.consumed)
    {document : Document K} (finished : parser.finish.1 = .ok document) :
    let eos : Entry K := ⟨.eos, "", none, none, .point parser.state.location parser.state.label⟩
    let forest := draft.zipper.forest ++ .leaf eos
    document.Says ⟨forest, draft.notes, String.ofList parser.state.consumed, parser.state.label⟩ ∧
      Tiles parser.state.label .start forest.preorder parser.state.consumed ∧
      forest.Linked Draft.Placed none := by
  intro eos forest
  have hfinish := finish_of_ready ready
  have hplace : parser.state.location = Location.start.advance parser.state.consumed :=
    ready.follows.location
  cases hforest : draft.finish parser.state.options parser.state.location with
  | error error =>
    rw [hforest] at hfinish
    cases hfinish.symm.trans finished
  | ok result =>
    rw [hforest] at hfinish
    obtain ⟨document', hdocument, hcontent⟩ := hfinish
    obtain rfl : document' = document := Except.ok.inj (hdocument.symm.trans finished)
    have hresult : result = forest := by
      rw [Draft.finish] at hforest
      split at hforest
      · cases hforest
      · exact (Except.ok.inj hforest).symm
    rw [hresult] at hcontent
    refine ⟨hcontent, ?_, Forest.linked_append.2
      ⟨covers.placed.zipper.forest, .inr (.inr rfl), trivial, trivial⟩⟩
    have heos : Tiles parser.state.label (Location.start.advance parser.state.consumed) [eos] [] :=
      ⟨rfl, by rw [← hplace], rfl⟩
    rw [Forest.preorder_append, Forest.preorder_leaf]
    have hall := covers.tiles.append heos
    rwa [List.append_nil] at hall

end Parser

end GlobTree
