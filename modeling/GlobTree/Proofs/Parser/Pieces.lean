import GlobTree.Proofs.Parser.Table
/-!
# Reading a text in two steps

What a table of tokens and pairs makes of a text can be said without a parser, in two steps that do
not know of each other. First the text is cut into pieces from the left, each of them what the first
clause recognises that recognises anything (`Table.split`). Then the pieces are built into trees by
recursion on their nesting (`Piece.build`): an opening piece starts a group, which goes on to the
closing piece of the same kind.

`Table.read` puts the two together and says which of several faults counts. A parser with the table
does both steps at once and comes to the same result (`Parser.parse_eq_read`).
-/

namespace GlobTree

variable {K M : Type}

/-! ## Cutting -/

/-- A piece of a text at its place. -/
structure Piece (K : Type) where
  use : Use K
  raw : List Char
  place : Location
  deriving DecidableEq, Repr

/-- A text that was cut as far as possible. -/
structure Cutting (K : Type) where
  pieces : List (Piece K)
  /-- The text from the first character on at which no clause recognises anything. -/
  rest : List Char
  /-- The place of that character, or of the end. -/
  stop : Location
  deriving DecidableEq, Repr

/-- Cuts a text from a place on. No piece is empty. -/
def Table.split (table : Table K) (place : Location) (text : List Char) : Cutting K :=
  match text with
  | [] => ⟨[], [], place⟩
  | c :: cs =>
    match table.first? (c :: cs) with
    | none => ⟨[], c :: cs, place⟩
    | some (use, raw) =>
      let after := table.split (place.advance raw) (cs.drop (raw.length - 1))
      { after with pieces := ⟨use, raw, place⟩ :: after.pieces }
termination_by text.length
decreasing_by
  simp only [List.length_drop, List.length_cons]
  omega

/-! ## Building -/

/-- Trees that were built from pieces. -/
inductive Row (K : Type) (pieces : List (Piece K))
  /-- The pieces came to an end, where the group given as the innermost one was open, if any was
  that is among the trees. -/
  | ended (trees : Forest (Entry K)) (unclosed? : Option (K × Location))
  /-- The last tree is the closing token of the group around the trees, and these pieces are
  left. -/
  | closed (trees : Forest (Entry K)) (left : List (Piece K)) (suffix : left <:+ pieces.tail)

namespace Row

/-- All trees. -/
def trees {pieces : List (Piece K)} : Row K pieces → Forest (Entry K)
  | ended trees _ | closed trees _ _ => trees

/-- The innermost group among the trees that was not closed, and where it starts. -/
def unclosed? {pieces : List (Piece K)} : Row K pieces → Option (K × Location)
  | ended _ unclosed? => unclosed?
  | closed _ _ _ => none

/-- The same trees after others, which were built from earlier pieces. -/
def after {pieces left : List (Piece K)} (others : Forest (Entry K)) (later : left <:+ pieces.tail) :
    Row K left → Row K pieces
  | ended trees unclosed? => .ended (others ++ trees) unclosed?
  | closed trees rest suffix =>
    .closed (others ++ trees) rest ((suffix.trans (List.tail_suffix left)).trans later)

end Row

/-- Builds trees from pieces, up to the closing token of the group around them, which is of the
given kind. -/
def Piece.build [DecidableEq K] (label : String) (within : Option K) (pieces : List (Piece K)) :
    Except (ParseError K) (Row K pieces) :=
  match pieces with
  | [] => .ok (.ended .nil none)
  | ⟨use, raw, place⟩ :: pieces =>
    match use with
    | .token kind _ =>
      let token := Forest.leaf (Draft.entryOf (.token kind) raw place label)
      (build label within pieces).map (.after token (List.suffix_refl pieces))
    | .opening kind lead =>
      let opening := Forest.leaf (Draft.entryOf (.opening kind) raw place label)
      let group (trees : Forest (Entry K)) : Forest (Entry K) :=
        .cons (Draft.groupOf kind lead place label) (opening ++ trees) .nil
      match build label (some kind) pieces with
      | .error error => .error error
      | .ok (.ended trees unclosed?) =>
        .ok (.ended (group trees) (unclosed?.or (some (kind, place))))
      | .ok (.closed trees left suffix) =>
        (build label within left).map
          (.after (group trees) (suffix.trans (List.tail_suffix pieces)))
    | .closing kind trail =>
      if within = some kind then
        let closing := { Draft.entryOf (.closing kind) raw place label with trail := trail }
        .ok (.closed (.leaf closing) pieces (List.suffix_refl pieces))
      else .error (.at (.unbalancedClose kind (String.ofList raw) within) label place)
termination_by pieces.length
decreasing_by
  · simp
  · simp
  · have := (suffix.trans (List.tail_suffix pieces)).length_le
    simp only [List.length_cons]
    omega

/-- What a table makes of a text. The first closing piece that is out of place counts before a
character at which nothing is recognised, and that before a group which is not closed. -/
def Table.read [DecidableEq K] (table : Table K) (options : ParserOptions) (text : List Char) :
    Except (ParseError K) (Content K) := do
  let label := options.sourceLabel
  let cutting := table.split .start text
  let row ← Piece.build label none cutting.pieces
  match cutting.rest with
  | c :: _ => .error (.at (.noHandler c) label cutting.stop)
  | [] =>
    match options.strict, row.unclosed? with
    | true, some (kind, start) => .error (.at (.unterminated kind) label start)
    | _, _ =>
      let eos : Entry K := ⟨.eos, "", none, none, .point cutting.stop label⟩
      .ok ⟨row.trees ++ .leaf eos, #[], String.ofList text, label⟩

/-! ## Putting pieces one after the other -/

/-- A piece that is no reason to complain. -/
def Piece.Quiet (piece : Piece K) : Prop :=
  ∀ kind complaint, piece.use = .token kind complaint → complaint = none

theorem Table.quiet_split (table : Table K) (place : Location) (text : List Char) :
    ∀ piece ∈ (table.split place text).pieces, piece.Quiet := by
  fun_induction Table.split table place text with
  | case1 => exact fun _ h => absurd h List.not_mem_nil
  | case2 => exact fun _ h => absurd h List.not_mem_nil
  | case3 place c cs use raw hfirst after ih =>
    intro piece hpiece
    rcases List.mem_cons.1 hpiece with rfl | hpiece
    · rintro kind complaint rfl
      exact table.complaint_eq_none hfirst
    · exact ih piece hpiece

namespace Draft

variable [DecidableEq K]

/-- Puts pieces one after the other. -/
def putAll (options : ParserOptions) (draft : Draft K) :
    List (Piece K) → Except (ParseError K) (Draft K)
  | [] => .ok draft
  | piece :: pieces =>
    match draft.put options piece.place piece.use piece.raw with
    | .ok next => next.putAll options pieces
    | .error error => .error error

/-- **Scanning a text puts the pieces into which the table cuts it**, and then comes to the end or
to a character at which nothing is recognised. -/
theorem scan_eq_putAll {table : Table K} (headOnly : table.HeadOnly) (options : ParserOptions)
    (draft : Draft K) (place : Location) (text : List Char) :
    draft.scan table.cut options place text =
      match draft.putAll options (table.split place text).pieces with
      | .error error => .error error
      | .ok next =>
        match (table.split place text).rest with
        | [] => .ok (next, (table.split place text).stop)
        | c :: _ =>
          .error (.at (.noHandler c) options.sourceLabel (table.split place text).stop) := by
  fun_induction Table.split table place text generalizing draft with
  | case1 place => rw [scan, putAll]
  | case2 place c cs hfirst =>
    rw [scan, Table.cut, hfirst]
    rfl
  | case3 place c cs use raw hfirst after ih =>
    have hraw := headOnly.raw_eq hfirst
    rw [scan, Table.cut, hfirst, putAll]
    simp only [Option.map_some, ← hraw]
    cases draft.put options place use raw with
    | error error => rfl
    | ok next => exact ih next

/-- What pieces do to a draft, if `row` is what is built from them. -/
def Builds (options : ParserOptions) (draft : Draft K) (pieces : List (Piece K)) :
    Except (ParseError K) (Row K pieces) → Prop
  | .error error => draft.putAll options pieces = .error error
  | .ok (.ended trees unclosed?) => ∃ next, draft.putAll options pieces = .ok next ∧
    next.zipper.forest = (Zipper.mk draft.zipper.outer (draft.zipper.inner ++ trees)).forest ∧
    next.unclosed? = unclosed?.or draft.unclosed? ∧ next.notes = draft.notes
  | .ok (.closed trees left _) => draft.putAll options pieces =
    ({ draft with
      zipper := (Zipper.mk draft.zipper.outer (draft.zipper.inner ++ trees)).ascend } :
      Draft K).putAll options left

/-- Trees in front of what is built. -/
theorem Builds.after {options : ParserOptions} {draft next : Draft K} {pieces left : List (Piece K)}
    {others : Forest (Entry K)} (later : left <:+ pieces.tail)
    (hzipper : next.zipper = ⟨draft.zipper.outer, draft.zipper.inner ++ others⟩)
    (hnotes : next.notes = draft.notes)
    (hput : draft.putAll options pieces = next.putAll options left)
    {row : Except (ParseError K) (Row K left)} (h : next.Builds options left row) :
    draft.Builds options pieces (row.map (.after others later)) := by
  have hunclosed : next.unclosed? = draft.unclosed? := by
    rw [unclosed?, unclosed?, hzipper]
  cases row with
  | error error => exact hput.trans h
  | ok row =>
    cases row with
    | ended trees unclosed? =>
      obtain ⟨last, hlast, hforest, hopen, hsame⟩ := h
      rw [hzipper, Forest.append_assoc] at hforest
      exact ⟨last, hput.trans hlast, hforest, hunclosed ▸ hopen, hsame.trans hnotes⟩
    | closed trees rest suffix =>
      rw [Builds, hzipper, Forest.append_assoc, hnotes] at h
      exact hput.trans h

/-- **Putting pieces one after the other does what building them does.** What the builder has on its
way down, the draft has as the groups around its place. -/
theorem builds (options : ParserOptions) (draft : Draft K) (pieces : List (Piece K))
    (quiet : ∀ piece ∈ pieces, piece.Quiet) :
    draft.Builds options pieces
      (Piece.build options.sourceLabel draft.innermost? pieces) := by
  induction hlength : pieces.length using Nat.strongRecOn generalizing draft pieces with
  | ind n ih =>
    cases pieces with
    | nil =>
      rw [Piece.build]
      exact ⟨draft, rfl, by rw [Forest.append_nil], rfl, rfl⟩
    | cons piece pieces =>
      obtain ⟨use, raw, place⟩ := piece
      have hquiet : ∀ piece ∈ pieces, piece.Quiet := fun piece h => quiet piece (List.mem_cons_of_mem _ h)
      have hpieces : pieces.length < n := by
        rw [← hlength, List.length_cons]
        exact Nat.lt_succ_self _
      cases use with
      | token kind complaint =>
        rw [Piece.build]
        obtain rfl : complaint = none := quiet _ List.mem_cons_self kind complaint rfl
        let token := entryOf (.token kind) raw place options.sourceLabel
        let next : Draft K := { draft with zipper := draft.zipper.add token }
        have hnext := ih _ hpieces next pieces hquiet rfl
        refine Builds.after (List.suffix_refl pieces) ?_ ?_ ?_ hnext <;> rfl
      | opening kind lead =>
        rw [Piece.build]
        let group := groupOf kind lead place options.sourceLabel
        let opening := entryOf (.opening kind) raw place options.sourceLabel
        let next : Draft K := { draft with zipper := (draft.zipper.descend group).add opening }
        have hput : draft.putAll options (⟨.opening kind lead, raw, place⟩ :: pieces) =
          next.putAll options pieces := rfl
        have hnext := ih _ hpieces next pieces hquiet rfl
        have hkind : next.innermost? = some kind := rfl
        rw [hkind] at hnext
        generalize Piece.build options.sourceLabel (some kind) pieces = row at hnext ⊢
        cases row with
        | error error => exact hput.trans hnext
        | ok row =>
          cases row with
          | ended trees unclosed? =>
            obtain ⟨last, hlast, hforest, hopen, hnotes⟩ := hnext
            refine ⟨last, hput.trans hlast, hforest, ?_, hnotes⟩
            rw [hopen, Option.or_assoc]
            rfl
          | closed trees left suffix =>
            have hleft : left <:+ pieces := suffix.trans (List.tail_suffix pieces)
            let after : Draft K := { draft with
              zipper := ⟨draft.zipper.outer,
                draft.zipper.inner ++ .cons group (.leaf opening ++ trees) .nil⟩ }
            have hafter := ih _ (Nat.lt_of_le_of_lt hleft.length_le hpieces) after left
              (fun piece h => hquiet piece (hleft.subset h)) rfl
            refine Builds.after hleft ?_ ?_ (hput.trans hnext) hafter <;> rfl
      | closing kind trail =>
        rw [Piece.build]
        by_cases hkind : draft.innermost? = some kind
        · rw [if_pos hkind]
          show draft.putAll options _ = _
          rw [putAll, put, if_pos hkind]
          rfl
        · rw [if_neg hkind]
          show draft.putAll options _ = _
          rw [putAll, put, if_neg hkind]

end Draft

/-! ## Reading -/

variable [DecidableEq K]

/-- At the top there is no group that a closing piece could close. -/
theorem Piece.exists_of_build_none {label : String} {pieces : List (Piece K)} {row : Row K pieces}
    (h : build label none pieces = .ok row) : ∃ trees unclosed?, row = .ended trees unclosed? := by
  induction hlength : pieces.length using Nat.strongRecOn generalizing pieces with
  | ind n ih =>
    cases pieces with
    | nil =>
      rw [build] at h
      cases h
      exact ⟨_, _, rfl⟩
    | cons piece pieces =>
      obtain ⟨use, raw, place⟩ := piece
      have hpieces : pieces.length < n := by
        rw [← hlength, List.length_cons]
        exact Nat.lt_succ_self _
      -- What comes after other trees ends as it does without them.
      have hafter {left : List (Piece K)} (hleft : left <:+ pieces) {others : Forest (Entry K)}
          (h : (build label none left).map (Row.after others hleft) = .ok row) :
          ∃ trees unclosed?, row = .ended trees unclosed? := by
        obtain ⟨later, hrow, rfl⟩ := map_eq_ok_iff.1 h
        obtain ⟨trees, unclosed?, rfl⟩ :=
          ih _ (Nat.lt_of_le_of_lt hleft.length_le hpieces) hrow rfl
        exact ⟨_, _, rfl⟩
      cases use with
      | token kind complaint =>
        rw [build] at h
        exact hafter (List.suffix_refl pieces) h
      | closing kind trail =>
        rw [build, if_neg (by simp)] at h
        cases h
      | opening kind lead =>
        rw [build] at h
        dsimp only at h
        split at h
        · cases h
        · cases h
          exact ⟨_, _, rfl⟩
        next trees left suffix hrow => exact hafter (suffix.trans (List.tail_suffix pieces)) h

/-- **Scanning a text does what cutting it and building the pieces does.** -/
theorem Draft.read_eq_read {table : Table K} (headOnly : table.HeadOnly) (options : ParserOptions)
    (text : List Char) : Draft.read table.cut options text = table.read options text := by
  have hscan := scan_eq_putAll headOnly options {} .start text
  have hbuilds := builds options {} _ (table.quiet_split .start text)
  have hnone : ({} : Draft K).innermost? = none := rfl
  rw [hnone] at hbuilds
  rw [Draft.read, Table.read, hscan]
  simp only [bind, Except.bind]
  cases hrow : Piece.build options.sourceLabel none (table.split .start text).pieces with
  | error error =>
    rw [hrow] at hbuilds
    rw [show putAll options {} _ = _ from hbuilds]
  | ok row =>
    obtain ⟨trees, unclosed?, rfl⟩ := Piece.exists_of_build_none hrow
    rw [hrow] at hbuilds
    obtain ⟨next, hput, hforest, hopen, hnotes⟩ := hbuilds
    have hopen' : next.unclosed? = unclosed? := hopen.trans Option.or_none
    have hforest' : next.zipper.forest = trees := hforest
    rw [hput]
    cases (table.split .start text).rest with
    | cons c cs => rfl
    | nil =>
      simp only [finish, hopen', Row.unclosed?, Row.trees, hforest', hnotes]
      cases options.strict <;> cases unclosed? <;> rfl

namespace Parser

/-- **A parser with a table does what cutting the text and building the pieces does.** It fails at
the first closing piece that does not close the innermost group; or else at the first character at
which no rule matches; or else, in strict mode, because of the innermost group that is open at the
end. If it does not fail, its document has the trees that were built, and the end after them. -/
theorem parse_eq_read {table : Table K} (headOnly : table.HeadOnly) (options : ParserOptions)
    (memory : M) (text : String) :
    ((ofTable table options memory).parse text).1.map Document.content =
      (table.read options text.toList).mapError .failed := by
  have hparse := parse_of_fresh (headOnly.obeys options memory) trivial (state_ofTable ..)
    (poisoned_ofTable ..) text
  rw [Draft.read_eq_read headOnly] at hparse
  cases hread : table.read options text.toList with
  | error error =>
    rw [hread] at hparse
    rw [show ((ofTable table options memory).parse text).1 = _ from hparse]
    rfl
  | ok content =>
    rw [hread] at hparse
    obtain ⟨document, hdocument, hcontent⟩ := hparse
    rw [hdocument]
    exact congrArg Except.ok hcontent.content_eq

/-- Two groups that cross each other. The second closing token does not count any more, nor does
the equals sign, which no rule matches. -/
theorem parse_eq_read_crossed :
    Table.words.HeadOnly ∧
      (Table.words.read {} "é (a\n<b) c>=".toList).mapError ParseStop.failed =
        .error (.failed (.at (.unbalancedClose ')' ")" (some '>')) "string" ⟨8, 2, 3⟩)) := by
  refine ⟨Table.headOnly_words, ?_⟩
  rw [← parse_eq_read Table.headOnly_words {} () "é (a\n<b) c>="]
  decide +kernel

end Parser

end GlobTree
