import GlobTree.Proofs.Extglob.Documents
import GlobTree.Proofs.Parser.ErrorModes
import GlobTree.Proofs.Parser.Groups
/-!
# Bars outside of groups

The only problem that a parser of patterns reports is a bar outside of all groups. A parser that
collects problems notes one for each bar at the top of the document, in order (`BarsNoted.put`), and
a parser that throws stops at the first of them (`parse_throw`).
-/

namespace GlobTree

/-! ## The top of a growing forest -/

namespace Zipper

variable {α : Type}

/-- Below a tree around the place, nothing changes the top. -/
theorem roots_forest (level : Level α) (outer : List (Level α)) (inner other : Forest α) :
    (Zipper.mk (level :: outer) inner).forest.roots =
      (Zipper.mk (level :: outer) other).forest.roots := by
  induction outer generalizing level inner other with
  | nil =>
    have h (f : Forest α) : (Zipper.mk [level] f).forest.roots = level.before.roots ++ [level.label] :=
      Forest.roots_append level.before (.cons level.label f .nil)
    rw [h, h]
  | cons level' outer ih => exact ih level' (level.close inner) (level.close other)

/-- A node that is added outside of all trees is at the top. -/
theorem roots_add_of_nil {zipper : Zipper α} (h : zipper.outer = []) (label : α) :
    (zipper.add label).forest.roots = zipper.forest.roots ++ [label] := by
  obtain ⟨outer, inner⟩ := zipper
  obtain rfl : outer = [] := h
  exact Forest.roots_append inner (.leaf label)

/-- A node that is added in a tree is not at the top. -/
theorem roots_add_of_ne_nil {zipper : Zipper α} (h : zipper.outer ≠ []) (label : α) :
    (zipper.add label).forest.roots = zipper.forest.roots := by
  obtain ⟨outer, inner⟩ := zipper
  obtain ⟨level, outer, rfl⟩ := List.exists_cons_of_ne_nil h
  exact roots_forest level outer _ _

end Zipper

namespace Extglob

/-! ## Notes about bars -/

/-- Whether an entry is that of a bar. -/
def isBar (entry : Entry Kind) : Bool := entry.role = .token .pipe

/-- What is noted for a bar. -/
def barNote (label : String) (entry : Entry Kind) : Diagnostic :=
  ⟨pipeComplaint, entry.span.stop, label⟩

/-- What is added in a group, or is no bar, is none of the bars at the top. -/
theorem filter_roots_add {zipper : Zipper (Entry Kind)} {entry : Entry Kind}
    (h : zipper.outer ≠ [] ∨ isBar entry = false) :
    (zipper.add entry).forest.roots.filter isBar = zipper.forest.roots.filter isBar := by
  by_cases houter : zipper.outer = []
  · have hentry : ¬ isBar entry = true := by
      simpa using h.resolve_left fun hne => hne houter
    rw [Zipper.roots_add_of_nil houter, List.filter_append, List.filter_cons_of_neg hentry,
      List.filter_nil, List.append_nil]
  · rw [Zipper.roots_add_of_ne_nil houter]

/-- Just the bars at the top are noted, in order. -/
def BarsNoted (label : String) (draft : Draft Kind) : Prop :=
  draft.notes.toList = (draft.zipper.forest.roots.filter isBar).map (barNote label)

/-- **Putting a piece of text notes a bar at the top, and nothing else.** -/
theorem BarsNoted.put {draft next : Draft Kind} {options : ParserOptions} {place : Location}
    {c : Char} {cs : List Char} {use : Use Kind} {more : Nat}
    (noted : BarsNoted options.sourceLabel draft) (grouped : draft.Grouped)
    (collects : options.errorMode = .collect)
    (hcut : cut draft.innermost? c cs = (use, more))
    (hput : draft.put options place use (c :: cs.take more) = .ok next) :
    BarsNoted options.sourceLabel next := by
  rw [BarsNoted] at noted ⊢
  cases use with
  | token kind complaint =>
    have hcomplaint := complaint_of_cut hcut
    let token := Draft.entryOf (.token kind) (c :: cs.take more) place options.sourceLabel
    by_cases hbar : kind = .pipe ∧ draft.innermost? = none
    · rw [if_pos hbar] at hcomplaint
      subst hcomplaint
      rw [Draft.put, collects] at hput
      cases hput
      have htoken : isBar token = true := by simp [isBar, token, Draft.entryOf, hbar.1]
      rw [Array.toList_push, noted,
        Zipper.roots_add_of_nil (grouped.innermost?_eq_none.1 hbar.2) token, List.filter_append,
        List.map_append, List.filter_cons_of_pos htoken]
      rfl
    · rw [if_neg hbar] at hcomplaint
      subst hcomplaint
      cases hput
      have hother : draft.zipper.outer ≠ [] ∨ isBar token = false := by
        by_cases hkind : kind = .pipe
        · exact .inl fun h => hbar ⟨hkind, grouped.innermost?_eq_none.2 h⟩
        · exact .inr (by simp [isBar, token, Draft.entryOf, hkind])
      rw [noted, filter_roots_add hother]
  | opening kind lead =>
    cases hput
    let group := Draft.groupOf kind lead place options.sourceLabel
    have hgroup : isBar group = false := by simp [isBar, group, Draft.groupOf]
    have hdescend : (draft.zipper.descend group).forest = (draft.zipper.add group).forest := rfl
    rw [filter_roots_add (.inl (List.cons_ne_nil _ _)), hdescend, filter_roots_add (.inr hgroup)]
    exact noted
  | closing kind trail =>
    rw [Draft.put] at hput
    split at hput
    case isFalse => cases hput
    case isTrue hkind =>
      cases hput
      have houter : draft.zipper.outer ≠ [] := fun h => by
        rw [grouped.innermost?_eq_none.2 h] at hkind
        cases hkind
      rw [Zipper.forest_ascend, filter_roots_add (.inl houter)]
      exact noted

/-! ## Parsing in the two modes -/

/-- **There is one note for each bar at the top**, in order. -/
theorem diagnostics_of_parse {pattern : String} {options : ParserOptions} {document : Document Kind}
    (collects : options.errorMode = .collect) (h : parse pattern options = .ok document) :
    ∃ top, document.topLevel.toList.mapM document.node? = some top ∧
      document.diagnostics.toList = (top.filter fun node => node.role = .token .pipe).map
        fun node => ⟨pipeComplaint, node.span.stop, document.label⟩ := by
  obtain ⟨content, draft, stop, hcontent, hscan, hforest, hnotes, hlabel⟩ :=
    Parser.exists_scan_of_parse obeys_cut (Draft.linked_empty Fits) rfl rfl h
  have hnoted : BarsNoted options.sourceLabel draft ∧ draft.Grouped := by
    let P (draft : Draft Kind) (_ : Location) (_ : List Char) : Prop :=
      BarsNoted options.sourceLabel draft ∧ draft.Grouped
    have hstart : P {} .start pattern.toList := ⟨rfl, Draft.grouped_empty⟩
    refine Draft.scan_induction (P := P) (fun h hcut hput => ?_) hstart hscan
    exact ⟨h.1.put h.2 collects (Option.some.inj hcut) hput, h.2.put hput⟩
  obtain ⟨root, hroot, -, hchildren, hlaid, -⟩ := hcontent.spine.exists_root
  obtain ⟨top, htop, hentries⟩ := hlaid.mapM_node?
  have htopLevel : document.topLevel.toList = content.forest.ids 1 := by
    rw [Arena.topLevel, Arena.children?, hroot]
    exact hchildren
  have hlabel' : document.label = options.sourceLabel := hcontent.label.trans hlabel
  refine ⟨top, htopLevel ▸ htop, ?_⟩
  have hroots : content.forest.roots.filter isBar = draft.zipper.forest.roots.filter isBar := by
    rw [hforest, Forest.roots_append, List.filter_append]
    exact List.append_nil _
  rw [hcontent.notes, hnotes, hnoted.1, ← hroots, ← hentries, List.filter_map, List.map_map, hlabel']
  rfl

/-- **A parse that throws is one that collects, stopped at the first note.** -/
theorem parse_throw (pattern : String) (options : ParserOptions) :
    let collected := (parser (options.withErrorMode .collect)).parse pattern
    let thrown := parse pattern (options.withErrorMode .throw)
    (Parser.noted collected = [] → thrown = collected.1) ∧
      (∀ note notes, Parser.noted collected = note :: notes →
        thrown = .error (.failed (.at (.diagnostic note.message) note.source note.location))) ∧
      (∀ document, thrown = .ok document ↔
        collected.1 = .ok document ∧ document.diagnostics = #[]) ∧
      ∀ document, collected.1 = .ok document →
        ∃ top, document.topLevel.toList.mapM document.node? = some top ∧
          document.diagnostics.toList = (top.filter fun node => node.role = .token .pipe).map
            fun node => ⟨pipeComplaint, node.span.stop, document.label⟩ := by
  intro collected thrown
  have hthrown : thrown = _ :=
    Parser.parse_throwing (plain_handlers (options.withErrorMode .collect)) rfl rfl pattern
  have hcollected : (parser (options.withErrorMode .collect)).parse pattern = collected := rfl
  rw [hcollected] at hthrown
  refine ⟨fun h => ?_, fun note notes h => ?_, fun document => ?_, fun document h => ?_⟩
  · rw [hthrown, h]
  · rw [hthrown, h]
    rfl
  · constructor
    · intro h
      cases hnoted : Parser.noted collected with
      | nil =>
        rw [hnoted, h] at hthrown
        rw [Parser.noted_of_ok hthrown.symm] at hnoted
        exact ⟨hthrown.symm, Array.toList_eq_nil_iff.1 hnoted⟩
      | cons note notes =>
        rw [hnoted, h] at hthrown
        cases hthrown
    · rintro ⟨hcollected, hempty⟩
      rw [hthrown, Parser.noted_of_ok hcollected, hempty]
      exact hcollected
  · exact diagnostics_of_parse rfl h

/-- Two bars are outside of groups here and one is in a group. The parse that throws stops at the
first. -/
theorem parse_throw_two_bars :
    let collected := (parser (ParserOptions.lenient {})).parse "é|(b|c)\n|"
    (Parser.noted collected).map (·.location) = [⟨3, 1, 3⟩, ⟨10, 2, 2⟩] ∧
      parse "é|(b|c)\n|" {} =
        .error (.failed (.at (.diagnostic pipeComplaint) "string" ⟨3, 1, 3⟩)) := by
  intro collected
  have hnoted : Parser.noted collected =
      [⟨pipeComplaint, ⟨3, 1, 3⟩, "string"⟩, ⟨pipeComplaint, ⟨10, 2, 2⟩, "string"⟩] := by
    decide +kernel
  refine ⟨by rw [hnoted]; rfl, ?_⟩
  exact (parse_throw "é|(b|c)\n|" {}).2.1 _ _ hnoted

end Extglob

end GlobTree
