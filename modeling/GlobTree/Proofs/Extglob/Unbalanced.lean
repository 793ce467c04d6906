import GlobTree.Proofs.Extglob.Lookahead
import GlobTree.Proofs.Parser.Nested
import GlobTree.Proofs.Strictness
/-!
# Closing tokens without their groups

An error about a closing token points at the first one that has no group to close
(`Extglob.parse_unbalancedClose`): the text in front of it can be parsed, and nothing that is open at
the end of it could be closed there.

* The pieces in front of an error are cut off in the same way if nothing comes after them
  (`Extglob.settled_cut`). So a scan that fails has scanned the text in front of the error
  (`Draft.exists_of_scan_error`), and with the same outcome as where problems are only noted
  (`Draft.scan_lenient`).
* What cannot be closed in the draft cannot be closed at the end of the document of that text either
  (`Document.Says.cannotClose`).
* The text in front of the error is the only one that ends at its line and column
  (`Location.eq_of_advance`).
-/

namespace GlobTree

/-! ## Where a scan fails -/

namespace Draft

variable {K : Type} [DecidableEq K] {cut : Cut K} {options : ParserOptions} {draft next : Draft K}
  {place stop : Location} {text raw : List Char} {error : ParseError K} {use : Use K}

/-- A text is cut in the same way if what comes after the piece is taken away. -/
def Cut.Settled (cut : Cut K) : Prop :=
  ∀ innermost c cs rest use more, cut innermost c (cs ++ rest) = some (use, more) →
    more ≤ cs.length → cut innermost c cs = some (use, more)

/-- The next piece of a text is an error. -/
def Refuses (draft : Draft K) (cut : Cut K) (options : ParserOptions) (place : Location) (c : Char)
    (cs : List Char) (error : ParseError K) : Prop :=
  match cut draft.innermost? c cs with
  | none => error = .at (.noHandler c) options.sourceLabel place
  | some (use, more) => draft.put options place use (c :: cs.take more) = .error error

/-- A first piece is put in the same way if only a part of the text after it is there. -/
theorem scan_piece (settled : cut.Settled) {c : Char} {piece before rest : List Char}
    (hcut : cut draft.innermost? c (piece ++ (before ++ rest)) = some (use, piece.length))
    (hput : draft.put options place use (c :: piece) = .ok next) :
    draft.scan cut options place (c :: piece ++ before) =
      next.scan cut options (place.advance (c :: piece)) before := by
  rw [← List.append_assoc] at hcut
  have hcut' := settled _ _ _ _ _ _ hcut (List.length_append ▸ Nat.le_add_right ..)
  have hput' : draft.put options place use (c :: (piece ++ before).take piece.length) =
      .ok next := by
    rwa [List.take_left]
  rw [List.cons_append, scan_cons hcut' hput', List.take_left, List.drop_left]

/-- **A scan that fails has scanned the text before the first piece that is an error**, and comes as
far if that text is all there is. -/
theorem exists_of_scan_error (settled : cut.Settled)
    (h : draft.scan cut options place text = .error error) :
    ∃ before c after reached, text = before ++ c :: after ∧
      draft.scan cut options place before = .ok (reached, place.advance before) ∧
      reached.Refuses cut options (place.advance before) c after error := by
  induction hlength : text.length using Nat.strongRecOn generalizing draft place text with
  | ind n ih =>
    cases text with
    | nil =>
      rw [scan] at h
      cases h
    | cons c cs =>
      have hfirst (hrefuses : draft.Refuses cut options place c cs error) :
          ∃ before d after reached, c :: cs = before ++ d :: after ∧
            draft.scan cut options place before = .ok (reached, place.advance before) ∧
            reached.Refuses cut options (place.advance before) d after error := by
        refine ⟨[], c, cs, draft, rfl, ?_, ?_⟩
        · rw [scan, Location.advance_nil]
        · rwa [Location.advance_nil]
      rw [scan] at h
      cases hcut : cut draft.innermost? c cs with
      | none =>
        simp only [hcut] at h
        refine hfirst ?_
        rw [Refuses, hcut]
        exact (Except.error.inj h).symm
      | some piece =>
        obtain ⟨use, more⟩ := piece
        cases hput : draft.put options place use (c :: cs.take more) with
        | error other =>
          simp only [hcut, hput] at h
          refine hfirst ?_
          rw [Refuses, hcut, ← Except.error.inj h]
          exact hput
        | ok next =>
          simp only [hcut, hput] at h
          have hshorter : (cs.drop more).length < n := by
            rw [← hlength, List.length_drop, List.length_cons]
            omega
          obtain ⟨before, d, after, reached, hrest, hscan, hrefuses⟩ := ih _ hshorter h rfl
          have hmore : more = (cs.take more).length := by
            have hlength := congrArg List.length hrest
            rw [List.length_drop, List.length_append, List.length_cons] at hlength
            rw [List.length_take]
            omega
          have hsplit : cs = cs.take more ++ (before ++ d :: after) := by
            rw [← hrest, List.take_append_drop]
          have hcut' : cut draft.innermost? c (cs.take more ++ (before ++ d :: after)) =
              some (use, (cs.take more).length) := by
            rw [← hsplit, ← hmore, hcut]
          rw [← Location.advance_append] at hscan hrefuses
          refine ⟨c :: cs.take more ++ before, d, after, reached, ?_, ?_, hrefuses⟩
          · rw [List.append_assoc, List.cons_append, ← hsplit]
          · rw [scan_piece settled hcut' hput, hscan]

/-- **What can be put can be put where problems are only noted**, with the same outcome, and whether
groups may be open at the end makes no difference. -/
theorem put_lenient (h : draft.put options place use raw = .ok next) (strict : Bool) :
    draft.put (options.withStrict strict).lenient place use raw = .ok next := by
  cases use with
  | token kind complaint =>
    cases complaint with
    | none => exact h
    | some complaint =>
      rw [put] at h
      cases hmode : options.errorMode <;> rw [hmode] at h <;> cases h
      rfl
  | opening kind lead => exact h
  | closing kind trail => exact h

theorem scan_lenient (h : draft.scan cut options place text = .ok (next, stop)) (strict : Bool) :
    draft.scan cut (options.withStrict strict).lenient place text = .ok (next, stop) := by
  let other := (options.withStrict strict).lenient
  let P (reached : Draft K) (middle : Location) (rest : List Char) : Prop :=
    draft.scan cut other place text = reached.scan cut other middle rest
  have hend : P next stop [] :=
    scan_induction (P := P) (fun hsame hcut hput =>
      hsame.trans (scan_cons hcut (put_lenient hput strict))) rfl h
  exact hend.trans (by rw [scan])

omit [DecidableEq K] in
/-- The end of a text is an error only because a group is open there. -/
theorem kind_of_finish_error (h : draft.finish options place = .error error) :
    error.kind = .unterminated := by
  rw [finish] at h
  split at h <;> cases h
  rfl

end Draft

/-! ## Closing tokens at the end of a document -/

/-- No group could be closed by a closing token of a kind at the end of a document: none is open, or
the last one is of another kind. -/
def Document.CannotClose {K : Type} [DecidableEq K] (document : Document K) (kind : K) : Prop :=
  document.unclosed = [] ∨ ∃ id node innermost, document.unclosed.getLast? = some id ∧
    document.node? id = some node ∧ node.role = .group innermost ∧ innermost ≠ kind

/-- The groups of a document that are not closed are those of the draft that are open, so that the
two cannot close the same kinds. -/
theorem Document.Says.cannotClose {K : Type} [DecidableEq K] {document : Document K}
    {content : Content K} (h : document.Says content) {draft : Draft K} (grouped : draft.Grouped)
    {eos : Entry K} (heos : eos.role = .eos)
    (hforest : content.forest = draft.zipper.forest ++ .leaf eos) {kind : K}
    (hinner : draft.innermost? ≠ some kind) : document.CannotClose kind := by
  have hunclosed := grouped.unclosed_forest_eos heos
  rw [← hforest] at hunclosed
  cases houter : draft.zipper.outer with
  | nil =>
    rw [houter] at hunclosed
    exact Or.inl (h.unclosed_eq_nil_iff.1 hunclosed)
  | cons level outer =>
    rw [houter] at hunclosed
    obtain ⟨id, node, hlast, hnode, hentry⟩ := h.exists_innermost hunclosed
    obtain ⟨innermost, hgroup⟩ := grouped.exists_kind houter
    refine Or.inr ⟨id, node, innermost, hlast, hnode, ?_, ?_⟩
    · rw [← hgroup, ← hentry]
      rfl
    · rintro rfl
      refine hinner ?_
      rw [Draft.innermost?, houter, List.head?_cons, Option.bind_some, hgroup]
      rfl

/-! ## Patterns -/

namespace Extglob

open Draft

/-- The kind of group that a character closes. -/
def closes? : Char → Option Kind
  | ')' => some .paren
  | '\x7d' => some .brace
  | ']' => some .bracket
  | _ => none

theorem settled_cut : Cut.Settled fun innermost c cs => some (cut innermost c cs) :=
  fun _ _ _ _ _ _ hcut hmore => congrArg some (cut_of_append (Option.some.inj hcut) hmore)

/-- **Only three characters close a group**, each of them those of one kind. -/
theorem closes?_of_cut {innermost : Option Kind} {c : Char} {cs : List Char} {kind : Kind}
    {trail : Option String} {more : Nat}
    (hcut : cut innermost c cs = (.closing kind trail, more)) : closes? c = some kind := by
  rw [cut] at hcut
  split at hcut
  next => cases hcut
  next =>
    split at hcut
    next =>
      rw [cutInBracket] at hcut
      split at hcut
      next hclose =>
        cases hcut
        rw [hclose]
        rfl
      next => split at hcut <;> cases hcut
    next =>
      unfold cutOutside at hcut
      dsimp only at hcut
      split at hcut
      · cases hcut
      · split at hcut
        case h_1 | h_6 | h_8 => split at hcut <;> cases hcut
        all_goals
          cases hcut
          try rfl

/-- A piece that is an error because its group is not open stands where the error says, and is one
of the characters that close groups. -/
theorem exists_of_refuses {draft : Draft Kind} {options : ParserOptions} {place : Location}
    {c : Char} {cs : List Char} {error : ParseError Kind}
    (h : draft.Refuses (fun innermost c cs => some (cut innermost c cs)) options place c cs error)
    (hkind : error.kind = .unbalancedClose) :
    ∃ kind, closes? c = some kind ∧ draft.innermost? ≠ some kind ∧ error.line = place.line ∧
      error.column = place.column := by
  rw [Refuses] at h
  dsimp only at h
  cases hcut : cut draft.innermost? c cs with
  | mk use more =>
    rw [hcut] at h
    cases use with
    | token kind complaint =>
      cases complaint with
      | none => cases h
      | some complaint =>
        rw [put] at h
        cases hmode : options.errorMode <;> rw [hmode] at h <;> cases h
        cases hkind
    | opening kind lead => cases h
    | closing kind trail =>
      rw [put] at h
      split at h
      next => cases h
      next hne =>
        cases h
        exact ⟨kind, closes?_of_cut hcut, hne, rfl, rfl⟩

/-- What is scanned can be parsed, if groups may be open at the end. -/
theorem exists_parse_of_scan {text : List Char} {options : ParserOptions} {draft : Draft Kind}
    {stop : Location} (lenient : options.strict = false)
    (hscan : ({} : Draft Kind).scan (fun innermost c cs => some (cut innermost c cs)) options .start
      text = .ok (draft, stop)) :
    ∃ document, parse (String.ofList text) options = .ok document ∧ document.Says
      ⟨draft.zipper.forest ++ .leaf ⟨.eos, "", none, none, .point stop options.sourceLabel⟩,
        draft.notes, String.ofList text, options.sourceLabel⟩ := by
  have hobeys : Obeys (parser options).handlers.toList
    (fun innermost c cs => some (cut innermost c cs)) (Draft.Linked Fits) := obeys_cut
  have hparse := Parser.parse_of_fresh hobeys (Draft.linked_empty Fits) rfl rfl (String.ofList text)
  have hfinish : draft.finish options stop = .ok (draft.zipper.forest ++
      .leaf ⟨.eos, "", none, none, .point stop options.sourceLabel⟩) := by
    rw [Draft.finish, lenient]
  rw [Draft.read, String.toList_ofList, hscan] at hparse
  simp only [bind, Except.bind, hfinish] at hparse
  exact hparse

/-- A parse that fails, other than because a group is open at the end, fails while scanning. -/
theorem scan_of_parse_error {pattern : String} {options : ParserOptions} {error : ParseError Kind}
    (h : parse pattern options = .error (.failed error)) (hkind : error.kind ≠ .unterminated) :
    ({} : Draft Kind).scan (fun innermost c cs => some (cut innermost c cs)) options .start
      pattern.toList = .error error := by
  have hscan := parse_eq_scan pattern options
  rw [h, scan, Draft.read] at hscan
  cases hresult : ({} : Draft Kind).scan (fun innermost c cs => some (cut innermost c cs)) options
      .start pattern.toList with
  | error other =>
    rw [hresult] at hscan
    cases hscan
    rfl
  | ok result =>
    obtain ⟨draft, stop⟩ := result
    rw [hresult] at hscan
    cases hfinish : draft.finish options stop with
    | error other =>
      simp only [bind, Except.bind, hfinish] at hscan
      cases hscan
      exact absurd (kind_of_finish_error hfinish) hkind
    | ok forest =>
      simp only [bind, Except.bind, hfinish] at hscan
      cases hscan

/-- **An error about a closing token points at the first one that has no group to close.**

There is exactly one first part of the pattern that ends at the line and the column of the error.
One of the characters that close groups comes next. The first part alone can be parsed if groups may
be open at its end and problems are only noted, and then no group is open at its end, or the last one
is of another kind. -/
theorem parse_unbalancedClose {pattern : String} {options : ParserOptions}
    {error : ParseError Kind} (h : parse pattern options = .error (.failed error))
    (hkind : error.kind = .unbalancedClose) :
    ∃ before c after kind document, pattern.toList = before ++ c :: after ∧
      (∀ other, other <+: pattern.toList ∧
        (Location.start.advance other).line = error.line ∧
        (Location.start.advance other).column = error.column ↔ other = before) ∧
      closes? c = some kind ∧
      parse (String.ofList before) (options.withStrict false).lenient = .ok document ∧
      document.CannotClose kind := by
  have hfailed := scan_of_parse_error h (by rw [hkind]; decide)
  obtain ⟨before, c, after, reached, hsplit, hscan, hrefuses⟩ :=
    exists_of_scan_error settled_cut hfailed
  obtain ⟨kind, hcloses, hinner, hline, hcolumn⟩ := exists_of_refuses hrefuses hkind
  obtain ⟨document, hdocument, hcontent⟩ := exists_parse_of_scan rfl (scan_lenient hscan false)
  have hpart : before <+: pattern.toList := ⟨c :: after, hsplit.symm⟩
  refine ⟨before, c, after, kind, document, hsplit, fun other => ⟨?_, ?_⟩, hcloses, hdocument, ?_⟩
  · rintro ⟨hother, hsameLine, hsameColumn⟩
    exact Location.eq_of_advance hother hpart (hsameLine.trans hline) (hsameColumn.trans hcolumn)
  · rintro rfl
    exact ⟨hpart, hline.symm, hcolumn.symm⟩
  · exact hcontent.cannotClose (grouped_of_scan hscan) rfl rfl hinner

/-- A quoted text, brackets and an escape stand in front of the brace that closes nothing here. A
parenthesis is open inside of the opening brace. -/
theorem parse_unbalancedClose_brace :
    let pattern := "\"(\"é\n[)]\x7ba\\\x7d(b\x7d"
    let error : ParseError Kind :=
      ⟨.unbalancedClose .brace "\x7d" (some .paren), "string", 2, 10⟩
    parse pattern {} = .error (.failed error) ∧ error.kind = .unbalancedClose ∧
      ∃ before c after kind document, pattern.toList = before ++ c :: after ∧
        (∀ other, other <+: pattern.toList ∧
          (Location.start.advance other).line = error.line ∧
          (Location.start.advance other).column = error.column ↔ other = before) ∧
        closes? c = some kind ∧
        parse (String.ofList before) (ParserOptions.withStrict {} false).lenient = .ok document ∧
        document.CannotClose kind := by
  intro pattern error
  have hparse : parse pattern {} = .error (.failed error) :=
    error?_eq_some_iff.1 (by decide +kernel)
  exact ⟨hparse, rfl, parse_unbalancedClose hparse rfl⟩

end Extglob

end GlobTree
