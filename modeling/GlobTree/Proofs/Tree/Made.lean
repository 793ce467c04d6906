import GlobTree.Proofs.Parser.History
import GlobTree.Proofs.Tree.Appending
/-!
# How documents are made

A document starts out empty, or a parser hands it over, or a node is added to a document that is
there already (`Document.Made`). All three come to adding nodes one after the other, so that parents
and children are consistent and the root reaches a tree (`Document.Made.grown`).
-/

namespace GlobTree

variable {K M : Type}

/-! ## Arenas that grew -/

/-- Parents and children are consistent, and what the root reaches is a tree. -/
structure Arena.Grown (arena : Arena K) : Prop where
  consistent : arena.Consistent
  rooted : ∃ tree, arena.Rooted tree

namespace Arena

theorem grown_empty (label : String) : (empty label : Arena K).Grown :=
  ⟨consistent_empty label, _, rooted_empty label⟩

/-- **Arenas grow by single nodes.** -/
theorem Grown.append? {arena next : Arena K} (h : arena.Grown) {parent id : NodeId} {node : Node K}
    (happend : arena.append? parent node = some (id, next)) : next.Grown := by
  obtain ⟨hparent, -, rfl⟩ := append?_eq_some_iff.1 happend
  obtain ⟨tree, rooted⟩ := h.rooted
  exact ⟨h.consistent.add hparent node, _, rooted.add h.consistent parent node⟩

end Arena

/-! ## Documents -/

variable [DecidableEq K]

namespace Document

/-- The ways to make a document. -/
inductive Made : Document K → Prop
  /-- A document without text. -/
  | empty (label : String) : Made (empty label)
  /-- A parser hands over a document in reply to a call. -/
  | parsed {M : Type} {handlers : List (Handler K M)} {options : ParserOptions} {memory : M}
      {calls : List Parser.Call} {call : Parser.Call} {document : Document K}
      (reply : (call, .ok (some document)) ∈
        ((Parser.ofHandlers handlers options memory).calls calls).1) : Made document
  /-- A node is added to a document. -/
  | append {document next : Document K} {parent id : NodeId} {node : Node K} (made : Made document)
      (added : document.append? parent node = some (id, next)) : Made next

/-- Nodes can be added one after the other. -/
theorem Made.appendAll? {document final : Document K} (made : document.Made)
    {nodes : List (NodeId × Node K)} (h : document.appendAll? nodes = some final) : final.Made := by
  induction nodes generalizing document with
  | nil =>
    obtain rfl := Option.some.inj h
    exact made
  | cons call nodes ih =>
    obtain ⟨⟨id, next⟩, hnext, hfinal⟩ := Option.bind_eq_some_iff.1 h
    exact ih (made.append hnext) hfinal

/-- **However a document is made**, parents and children are consistent, and the root reaches a
tree. -/
theorem Made.grown {document : Document K} (made : document.Made) : document.Grown := by
  induction made with
  | empty label => exact Arena.grown_empty label
  | parsed reply =>
    obtain ⟨state, hstate, hdocument⟩ :=
      Parser.exists_finishState_of_calls (ParseState.Kept.of_arena Arena.Grown.append?)
        (fun options => Arena.grown_empty options.sourceLabel) (fun _ _ h => h) reply
    obtain ⟨_, _, _, happend, rfl⟩ := Parser.exists_append?_of_finishState hdocument
    exact hstate.append? happend
  | append made added ih =>
    obtain ⟨⟨new, arena⟩, hnew, heq⟩ := Option.map_eq_some_iff.1 added
    cases heq
    exact ih.append? hnew

end Document

end GlobTree
