import GlobTree.Proofs.Extglob.Scanner
import GlobTree.Proofs.Parser.Moments
import Mathlib.Data.List.Induction
/-!
# The moment at which a node was made

A document finds the text before a node (`Document.consumedBefore?`) and the text that was left after
it (`Document.remainingAfter?`) however much text came later. With the text of the node in between,
this is all that had come when the node was made (`Parser.recalled_of_feedAll`).

* The programs for patterns make nodes that remember the text (`Extglob.keptBy_recalls`), as
  handlers with rules do.
* The nodes that are made while a chunk is read remember the text with that chunk
  (`Parser.Reads.recalls_feed`), and the end remembers the whole text (`Parser.recalls_endNode`).
  Chunks that come later do not change that (`Parser.recalls_feedAll`).
-/

namespace GlobTree

variable {K M : Type}

/-! ## Patterns -/

namespace Extglob

variable {state : ParseState Kind} {first : NodeId} {whole : List Char}

theorem recalls_classText (h : state.Recalls first whole) (memory : M) :
    ((classText : Program Kind M Unit).run state memory).state.Recalls first whole := by
  rw [run_classText]
  split
  · exact (Handler.capture .text classTextRule).recalls_run rfl h memory
  · exact h

theorem recalls_pipe (h : state.Recalls first whole) (memory : M) :
    ((pipe : Program Kind M Unit).run state memory).state.Recalls first whole := by
  cases heat : state.eat? pipeRule with
  | none =>
    simp only [pipe, bind, Program.mark, Program.bind, Program.tryEat, Program.run, heat]
    exact h
  | some result =>
    obtain ⟨found, moved⟩ := result
    obtain ⟨hmoved, hmarks⟩ := h.eat? heat
    cases found with
    | none =>
      simp only [pipe, bind, Program.mark, Program.bind, Program.tryEat, Program.run, heat]
      exact hmoved
    | some found =>
      rw [run_pipe_some heat]
      have hpush {state' : ParseState Kind} (h' : state'.Recalls first whole)
          (hmarks' : state'.Marks state.mark) :
          (((Program.push Kind.pipe state.mark).bind fun _ => .pure () :
            Program Kind M Unit).run state' memory).state.Recalls first whole := by
        obtain ⟨id, next, hpushed, hnext⟩ := h'.exists_push? hmarks' .pipe
        rw [Program.run_push hpushed]
        exact hnext
      split
      · -- The bar may be noted before it is added, or end the parse.
        have hnoted := hmoved.report pipeComplaint
        have hmarks' : (moved.report pipeComplaint).2.Marks state.mark := by
          obtain ⟨before, own, split, hstart⟩ := hmarks
          refine ⟨before, own, ?_, hstart⟩
          rw [ParseState.consumed, (ParseState.report_samePlace moved pipeComplaint).reader]
          exact split
        simp only [Program.complain, Program.bind, Program.run]
        cases hresult : (moved.report pipeComplaint).1 with
        | ok value => exact hpush hnoted hmarks'
        | error error => exact hnoted
      · exact hpush hmoved hmarks

/-- The handlers for patterns keep it so that nodes remember the text. -/
theorem keptBy_recalls (first : NodeId) (whole : List Char) :
    Parser.KeptBy (handlers (M := M)).toList fun state _ => state.Recalls first whole := by
  intro handler hmem state memory h
  cases handler with
  | middleware program =>
    have hprogram : program = classText ∨ program = pipe := by
      simpa [handlers] using hmem
    rcases hprogram with rfl | rfl
    · exact recalls_classText h memory
    · exact recalls_pipe h memory
  | _ => exact Handler.recalls_run _ rfl h memory

end Extglob

/-! ## Chunks -/

/-- What a document answers about a node: the text that was read before it, its own text, and the
text that was left to read when it was made. -/
structure Document.Answers (document : Document K) (id : NodeId) (before own after : String) :
    Prop where
  consumedBefore : document.consumedBefore? id = some before
  own : document.ownText? id = some own
  remainingAfter : document.remainingAfter? id = some after

/-- A document answers what its nodes remember, and so does one whose source goes on. -/
theorem Document.answers_of_recalls {document : Document K} {id : NodeId}
    {before own after : List Char} (h : document.toArena.Recalls id before own after)
    (hsource : ∃ more, document.source.toList = before ++ (own ++ after) ++ more) :
    document.Answers id (String.ofList before) (String.ofList own) (String.ofList after) := by
  have hown := h.ownText?_eq
  obtain ⟨more, hsource⟩ := hsource
  obtain ⟨node, hnode, hremembers, -⟩ := h
  have hsplit : document.source.toList = before ++ (own ++ (after ++ more)) := by
    rw [hsource, List.append_assoc, List.append_assoc]
  exact ⟨consumedBefore?_eq hnode hremembers hsplit, hown,
    remainingAfter?_eq hnode hremembers hsplit⟩

namespace Parser

variable [DecidableEq K] {parser : Parser K M} {whole : List Char} {chunks earlier : List String}
  {id : NodeId}

/-- A node was made while the last of some first chunks was read: it was not there before that
chunk, and it was there after it, unless these are all chunks. Then it may also be that of the
end. -/
structure MadeDuring (parser : Parser K M) (chunks earlier : List String) (id : NodeId) :
    Prop where
  isPrefix : earlier <+: chunks
  before : (parser.feedAll earlier.dropLast).2.state.arena.size ≤ id
  after : id < (parser.feedAll earlier).2.state.arena.size ∨ earlier = chunks

/-- The nodes of a document are answered for by the chunks that had come when they were made, and
the answers were the same at all times since. -/
structure Recalled (parser : Parser K M) (chunks : List String) (document : Document K) :
    Prop where
  made : ∀ id, id ≠ rootId → id < document.size →
    ∃ earlier, parser.MadeDuring chunks earlier id
  answers : ∀ id earlier, id ≠ rootId → id < document.size →
    parser.MadeDuring chunks earlier id →
    ∃ before own after, before ++ own ++ after = String.join earlier ∧
      document.Answers id before own after ∧
      ∀ more, earlier <+: more → more <+: chunks →
        id < (parser.feedAll more).2.state.arena.size →
          (parser.feedAll more).2.state.document.Answers id before own after

/-- A parser whose handlers make nodes that remember the text has read a text without an error. -/
structure Reads (parser : Parser K M) (whole : List Char) : Prop where
  kept : ∀ first whole, KeptBy parser.handlers.toList fun state _ => state.Recalls first whole
  clean : parser.poisoned = false
  sound : parser.state.Sound
  text : parser.state.reader.text = whole

/-- **The nodes that are made while a chunk is read** remember the text with that chunk. -/
theorem Reads.recalls_feed (h : parser.Reads whole) (chunk : String) :
    (parser.feed chunk).2.state.Recalls parser.state.arena.size (whole ++ chunk.toList) := by
  have hfed : (parser.state.feed chunk.toList).Recalls parser.state.arena.size
      (whole ++ chunk.toList) := by
    refine ⟨h.sound.feed _, ?_, fun id hfirst hid => absurd hid (Nat.not_lt.2 hfirst)⟩
    rw [← h.text]
    exact (List.append_assoc ..).symm
  rw [feed, guard, h.clean]
  exact (h.kept _ _).turns _ hfed

theorem Reads.feed (h : parser.Reads whole) {chunk : String}
    (fed : (parser.feed chunk).1 = .ok ()) :
    (parser.feed chunk).2.Reads (whole ++ chunk.toList) where
  kept := by
    rw [(parser.feed_sameSetup chunk).handlers]
    exact h.kept
  clean := by
    rw [← Bool.not_eq_true, poisoned_feed_iff, fed]
    exact fun ⟨_, herror⟩ => by cases herror
  sound := (h.recalls_feed chunk).sound
  text := (h.recalls_feed chunk).text

theorem Reads.feedAll (h : parser.Reads whole) (fed : (parser.feedAll chunks).1 = .ok ()) :
    (parser.feedAll chunks).2.Reads (whole ++ (String.join chunks).toList) := by
  induction chunks generalizing parser whole with
  | nil => simpa [Parser.feedAll] using h
  | cons chunk chunks ih =>
    rw [Parser.feedAll] at fed ⊢
    rw [String.join_cons, String.toList_append, ← List.append_assoc]
    split at fed
    next next hfeed =>
      have hnext := h.feed (congrArg Prod.fst hfeed)
      rw [hfeed] at hnext
      exact ih hnext fed
    next => cases fed

/-- What every operation keeps and adding text keeps is kept while chunks are read. -/
theorem feedAll_kept {P : ParseState K → Prop} (kept : ParseState.Kept P)
    (feed : ∀ state chunk, P state → P (state.feed chunk)) (h : P parser.state)
    (chunks : List String) : P (parser.feedAll chunks).2.state := by
  induction chunks generalizing parser with
  | nil => exact h
  | cons chunk chunks ih =>
    have hfeed := feed_kept kept h chunk (feed _ _)
    rw [feedAll]
    split
    next hresult =>
      rw [hresult] at hfeed
      exact ih hfeed
    next hresult =>
      rw [hresult] at hfeed
      exact hfeed

/-- Nodes are never lost. -/
theorem size_le_size_feedAll (parser : Parser K M) (chunks : List String) :
    parser.state.arena.size ≤ (parser.feedAll chunks).2.state.arena.size := by
  refine feedAll_kept (.of_arena (Q := fun arena => parser.state.arena.size ≤ arena.size) ?_)
    (fun _ _ h => h) le_rfl chunks
  intro arena next h parent id node happend
  obtain ⟨-, -, rfl⟩ := Arena.append?_eq_some_iff.1 happend
  rw [Arena.size_add]
  exact Nat.le_succ_of_le h

/-- A node remembers the same after more chunks. -/
theorem recalls_feedAll {before own after : List Char}
    (h : parser.state.arena.Recalls id before own after) (chunks : List String) :
    (parser.feedAll chunks).2.state.arena.Recalls id before own after :=
  feedAll_kept (.of_arena (Q := fun arena => arena.Recalls id before own after)
    fun h _ _ _ happend => h.append? happend) (fun _ _ h => h) h chunks

theorem feedAll_ok_of_isPrefix (fed : (parser.feedAll chunks).1 = .ok ())
    (hpart : earlier <+: chunks) : (parser.feedAll earlier).1 = .ok () := by
  obtain ⟨rest, rfl⟩ := hpart
  exact feedAll_ok_of_append fed

/-- What a node remembers after the first chunks it remembers after all. -/
theorem recalls_of_isPrefix {before own after : List Char}
    (fed : (parser.feedAll chunks).1 = .ok ()) (hpart : earlier <+: chunks)
    (h : (parser.feedAll earlier).2.state.arena.Recalls id before own after) :
    (parser.feedAll chunks).2.state.arena.Recalls id before own after := by
  obtain ⟨rest, rfl⟩ := hpart
  rw [feedAll_append (feedAll_ok_of_append fed)]
  exact recalls_feedAll h rest

/-- Every node was made while some chunk was read. -/
theorem exists_madeDuring (fed : (parser.feedAll chunks).1 = .ok ())
    (hfirst : parser.state.arena.size ≤ id)
    (hid : id < (parser.feedAll chunks).2.state.arena.size) :
    ∃ earlier, parser.MadeDuring chunks earlier id := by
  induction chunks using List.reverseRecOn with
  | nil => exact absurd hid (Nat.not_lt.2 hfirst)
  | append_singleton chunks chunk ih =>
    rcases Nat.lt_or_ge id (parser.feedAll chunks).2.state.arena.size with hbefore | hnew
    · obtain ⟨earlier, hpart, hstart, hafter⟩ := ih (feedAll_ok_of_append fed) hbefore
      refine ⟨earlier, hpart.trans (List.prefix_append ..), hstart, .inl ?_⟩
      rcases hafter with hafter | rfl
      · exact hafter
      · exact hbefore
    · refine ⟨chunks ++ [chunk], List.prefix_rfl, ?_, .inr rfl⟩
      rw [List.dropLast_concat]
      exact hnew

/-- **A node remembers the chunks that had come when it was made.** -/
theorem Reads.exists_recalls (h : parser.Reads []) (fed : (parser.feedAll earlier).1 = .ok ())
    (hfirst : (parser.feedAll earlier.dropLast).2.state.arena.size ≤ id)
    (hid : id < (parser.feedAll earlier).2.state.arena.size) :
    ∃ before own after, before ++ (own ++ after) = (String.join earlier).toList ∧
      (parser.feedAll earlier).2.state.arena.Recalls id before own after := by
  rcases List.eq_nil_or_concat earlier with rfl | ⟨chunks, chunk, rfl⟩
  · exact absurd hid (Nat.not_lt.2 hfirst)
  · rw [List.concat_eq_append] at fed hfirst hid ⊢
    rw [List.dropLast_concat] at hfirst
    have hchunks := feedAll_ok_of_append fed
    have hreads := (h.feedAll hchunks).recalls_feed chunk
    have hlast : (parser.feedAll (chunks ++ [chunk])).2 =
        ((parser.feedAll chunks).2.feed chunk).2 := by
      rw [feedAll_append hchunks, Parser.feedAll]
      split
      next hfeed => rw [hfeed, Parser.feedAll]
      next hfeed => rw [hfeed]
    rw [hlast] at hid ⊢
    obtain ⟨before, own, after, htext, hrecalls⟩ := hreads.nodes id hfirst hid
    refine ⟨before, own, after, htext.trans ?_, hrecalls⟩
    simp [String.join_append]

/-- The end remembers the text that was read and the text that was left. -/
theorem recalls_endNode {state : ParseState K} (sound : state.Sound) {arena : Arena K}
    (happend : state.arena.append? rootId (endNode state) = some (id, arena)) :
    arena.Recalls id state.consumed [] state.remaining := by
  obtain ⟨-, rfl, rfl⟩ := Arena.append?_eq_some_iff.1 happend
  obtain ⟨draft, hfollows, -⟩ := sound.follows
  have hlt : rootId < state.arena.size := Nat.zero_lt_of_lt hfollows.top_lt_size
  have hoffset : state.location.offset = byteLength state.consumed :=
    sound.offset_eq.trans state.reader.cursor_eq_byteLength_consumed
  refine ⟨_, Arena.node?_add_size hlt (endNode state), ⟨hoffset, ?_, ?_⟩, rfl⟩
  · rw [List.append_nil]
    exact hoffset.le
  · rw [List.append_nil]
    exact congrArg some state.moment_eq

/-- **What the nodes of a finished document remember.** -/
theorem Reads.exists_recalls_finish (h : parser.Reads [])
    (fed : (parser.feedAll chunks).1 = .ok ()) {document : Document K}
    (finished : (parser.feedAll chunks).2.finish.1 = .ok document)
    (made : parser.MadeDuring chunks earlier id) (hid : id < document.size) :
    ∃ before own after, before ++ (own ++ after) = (String.join earlier).toList ∧
      document.toArena.Recalls id before own after ∧
      ∀ more, earlier <+: more → more <+: chunks →
        id < (parser.feedAll more).2.state.arena.size →
          (parser.feedAll more).2.state.arena.Recalls id before own after := by
  obtain ⟨eos, arena, happend, rfl⟩ := append?_endNode_of_finish finished
  have hlast := h.feedAll fed
  obtain ⟨hpart, hfirst, hafter⟩ := made
  by_cases hold : id < (parser.feedAll earlier).2.state.arena.size
  · -- The node is older than the end, and nothing that comes later changes it.
    obtain ⟨before, own, after, htext, hrecalls⟩ :=
      h.exists_recalls (feedAll_ok_of_isPrefix fed hpart) hfirst hold
    refine ⟨before, own, after, htext, (recalls_of_isPrefix fed hpart hrecalls).append? happend, ?_⟩
    intro more hearlier hmore _
    exact recalls_of_isPrefix (feedAll_ok_of_isPrefix fed hmore) hearlier hrecalls
  · -- The node is that of the end.
    obtain rfl : earlier = chunks := hafter.resolve_left hold
    have hend : id = eos := by
      obtain ⟨-, rfl, rfl⟩ := Arena.append?_eq_some_iff.1 happend
      have hlt : id < (parser.feedAll earlier).2.state.arena.size + 1 := by
        rwa [← Arena.size_add]
      exact (Nat.lt_succ_iff_lt_or_eq.1 hlt).resolve_left hold
    rw [hend]
    refine ⟨_, _, _, hlast.text, recalls_endNode hlast.sound happend, ?_⟩
    intro more hearlier hmore hlt
    have hsame := hmore.eq_of_length_le hearlier.length_le
    rw [hsame, ← hend] at hlt
    exact absurd hlt hold

/-- **All nodes of a finished document answer with the chunks that had come.** -/
theorem Reads.recalled (h : parser.Reads []) (hsize : parser.state.arena.size = 1)
    (fed : (parser.feedAll chunks).1 = .ok ()) {document : Document K}
    (finished : (parser.feedAll chunks).2.finish.1 = .ok document) :
    parser.Recalled chunks document where
  made id hroot hid := by
    obtain ⟨eos, arena, happend, rfl⟩ := append?_endNode_of_finish finished
    obtain ⟨-, -, rfl⟩ := Arena.append?_eq_some_iff.1 happend
    have hlt : id < (parser.feedAll chunks).2.state.arena.size + 1 := by
      rwa [← Arena.size_add]
    rcases Nat.lt_succ_iff_lt_or_eq.1 hlt with hold | rfl
    · refine exists_madeDuring fed ?_ hold
      rw [hsize]
      exact Nat.pos_of_ne_zero hroot
    · refine ⟨chunks, List.prefix_rfl, ?_, .inr rfl⟩
      rcases List.eq_nil_or_concat chunks with rfl | ⟨first, last, rfl⟩
      · exact le_rfl
      · rw [List.concat_eq_append] at fed ⊢
        rw [List.dropLast_concat, feedAll_append (feedAll_ok_of_append fed)]
        exact size_le_size_feedAll ..
  answers id earlier _ hid made := by
    obtain ⟨before, own, after, htext, hrecalls, hlater⟩ :=
      h.exists_recalls_finish fed finished made hid
    have hsource (more : List String) (hearlier : earlier <+: more) (hmore : more <+: chunks) :
        ∃ rest, (parser.feedAll more).2.state.document.source.toList =
          before ++ (own ++ after) ++ rest := by
      have hread := (h.feedAll (feedAll_ok_of_isPrefix fed hmore)).text
      obtain ⟨rest, rfl⟩ := hearlier
      refine ⟨(String.join rest).toList, ?_⟩
      show (String.ofList _).toList = _
      rw [String.toList_ofList, hread, htext, List.nil_append, String.join_append,
        String.toList_append]
    refine ⟨String.ofList before, String.ofList own, String.ofList after, ?_, ?_, ?_⟩
    · rw [← String.ofList_append, ← String.ofList_append, List.append_assoc, htext,
        String.ofList_toList]
    · refine Document.answers_of_recalls hrecalls ?_
      obtain ⟨_, _, -, rfl⟩ := append?_endNode_of_finish finished
      exact hsource chunks made.isPrefix List.prefix_rfl
    · intro more hearlier hmore hnew
      exact Document.answers_of_recalls (hlater more hearlier hmore hnew)
        (hsource more hearlier hmore)

/-- A new parser has read nothing. -/
theorem reads_of_fresh
    (kept : ∀ first whole, KeptBy parser.handlers.toList fun state _ => state.Recalls first whole)
    {options : ParserOptions} (fresh : parser.state = .fresh options)
    (clean : parser.poisoned = false) : parser.Reads [] := by
  refine ⟨kept, clean, ?_, ?_⟩ <;> rw [fresh]
  · exact ParseState.sound_fresh options
  · rfl

/-- **The text before a node, its own text and the text after it** are the chunks that had come when
the node was made, for every table of captures and pairs and for the parser of patterns. Later
chunks do not change that. -/
theorem recalled_of_feedAll :
    (∀ {K M : Type} [DecidableEq K] (table : Table K) (options : ParserOptions) (memory : M)
      (chunks : List String) (document : Document K),
        ((ofTable table options memory).feedAll chunks).1 = .ok () →
        ((ofTable table options memory).feedAll chunks).2.finish.1 = .ok document →
        (ofTable table options memory).Recalled chunks document) ∧
    ∀ (options : ParserOptions) (chunks : List String) (document : Document Extglob.Kind),
      ((Extglob.parser options).feedAll chunks).1 = .ok () →
      ((Extglob.parser options).feedAll chunks).2.finish.1 = .ok document →
      (Extglob.parser options).Recalled chunks document := by
  constructor
  · intro K M _ table options memory chunks document fed finished
    have hrules : ∀ handler ∈ (ofTable table options memory).handlers.toList,
        handler.rule?.isSome := by
      rw [handlers_ofTable]
      exact table.rule?_isSome
    have hstate := state_ofTable table options memory
    have hreads := reads_of_fresh (keptBy_recalls_of_rules hrules) hstate
      (poisoned_ofTable table options memory)
    exact hreads.recalled (by rw [hstate]; rfl) fed finished
  · intro options chunks document fed finished
    have hreads : (Extglob.parser options).Reads [] :=
      reads_of_fresh Extglob.keptBy_recalls rfl rfl
    exact hreads.recalled rfl fed finished

/-- Texts in two chunks, with groups that are not closed, letters of two bytes and two lines. -/
theorem recalled_of_feedAll_unclosed :
    let words := (ofTable Table.words {} ()).feedAll ["é (a\n", "<b"]
    let pattern := (Extglob.parser {}).feedAll ["ä@(", "\n|[!"]
    (words.1 = .ok () ∧ ∃ document, words.2.finish.1 = .ok document ∧
      (ofTable Table.words {} ()).Recalled ["é (a\n", "<b"] document) ∧
    pattern.1 = .ok () ∧ ∃ document, pattern.2.finish.1 = .ok document ∧
      (Extglob.parser {}).Recalled ["ä@(", "\n|[!"] document := by
  intro words pattern
  obtain ⟨_, hwords⟩ := exists_of_isOk (show words.1.isOk = true by decide +kernel)
  obtain ⟨first, hfirst⟩ := exists_of_isOk (show words.2.finish.1.isOk = true by decide +kernel)
  obtain ⟨_, hpattern⟩ := exists_of_isOk (show pattern.1.isOk = true by decide +kernel)
  obtain ⟨second, hsecond⟩ := exists_of_isOk (show pattern.2.finish.1.isOk = true by decide +kernel)
  exact ⟨⟨hwords, first, hfirst, recalled_of_feedAll.1 Table.words _ _ _ _ hwords hfirst⟩,
    hpattern, second, hsecond, recalled_of_feedAll.2 _ _ _ hpattern hsecond⟩

/-- The group of an opening token answers with that token. -/
example : (((Extglob.parser {}).parse "ä@(b)").1.toOption.map fun document =>
    (document.consumedBefore? 2, document.ownText? 2, document.remainingAfter? 2)) =
      some (some "ä", some "@(", some "b)") := by decide +kernel

end Parser

end GlobTree
