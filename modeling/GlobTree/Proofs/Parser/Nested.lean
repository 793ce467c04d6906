import GlobTree.Proofs.Parser.Groups
/-!
# Reading a text in the middle of another one

A text that is read in the middle of another one makes the same trees as if it were alone, but at
other places in the text. `Zipper.within` puts a zipper at the place of another one, and whatever is
done to the inner zipper is done to the whole as well: a node is added (`Zipper.within_add`), a node
is gone below (`Zipper.within_descend`), and the innermost tree is left, unless the inner zipper has
none (`Zipper.within_ascend`).

`Draft.grow` is what a piece of text does to the tree of a draft apart from the places in the text
(`Draft.map_zipper_of_put`), and therefore it does the same within another tree (`Draft.grow_within`).
-/

namespace GlobTree

/-! ## Other labels -/

section Labels

variable {α β : Type} (f : α → β)

/-- A forest of the same shape with other labels. -/
def Forest.map : Forest α → Forest β
  | nil => nil
  | cons label below rest => cons (f label) below.map rest.map

@[simp] theorem Forest.map_nil : (Forest.nil : Forest α).map f = .nil := rfl

@[simp] theorem Forest.map_append (g h : Forest α) : (g ++ h).map f = g.map f ++ h.map f := by
  induction g with
  | nil => rfl
  | cons label below rest _ ih => rw [cons_append, map, map, ih, cons_append]

@[simp] theorem Forest.map_leaf (label : α) : (leaf label).map f = leaf (f label) := rfl

@[simp] theorem Forest.roots_map (g : Forest α) : (g.map f).roots = g.roots.map f := by
  induction g with
  | nil => rfl
  | cons label below rest _ ih => rw [map, roots, roots, ih, List.map_cons]

/-- A tree that may still grow, with other labels. -/
def Level.map (level : Level α) : Level β := ⟨f level.label, level.before.map f⟩

/-- A zipper of the same shape with other labels. -/
def Zipper.map (zipper : Zipper α) : Zipper β :=
  ⟨zipper.outer.map (Level.map f), zipper.inner.map f⟩

namespace Zipper

variable (zipper : Zipper α) (label : α)

@[simp] theorem map_add : (zipper.add label).map f = (zipper.map f).add (f label) := by
  simp only [map, add, Forest.map_append, Forest.map_leaf]

@[simp] theorem map_descend : (zipper.descend label).map f = (zipper.map f).descend (f label) :=
  rfl

@[simp] theorem map_ascend : zipper.ascend.map f = (zipper.map f).ascend := by
  obtain ⟨outer, inner⟩ := zipper
  cases outer with
  | nil => rfl
  | cons level outer => simp only [map, ascend, Level.close, Forest.map_append, List.map_cons]; rfl

end Zipper

end Labels

/-- An entry without its place in the text. -/
def Entry.unplaced {K : Type} (entry : Entry K) : Entry K :=
  { entry with span := .point .start "" }

/-! ## Zippers within zippers -/

namespace Zipper

variable {α : Type} (around : Zipper α)

/-- The trees around a place and those in front of it, at the place of a zipper. -/
def nest (around : Zipper α) : List (Level α) → Forest α → Zipper α
  | [], inner => ⟨around.outer, around.inner ++ inner⟩
  | level :: outer, inner =>
    ⟨((nest around outer level.before).descend level.label).outer, inner⟩

/-- A zipper at the place of another one. -/
def within (zipper around : Zipper α) : Zipper α := around.nest zipper.outer zipper.inner

theorem nest_append (outer : List (Level α)) (inner more : Forest α) :
    around.nest outer (inner ++ more) =
      { around.nest outer inner with inner := (around.nest outer inner).inner ++ more } := by
  cases outer with
  | nil => simp only [nest, Forest.append_assoc]
  | cons level outer => rfl

/-- Nothing changes where nothing has grown yet. -/
@[simp] theorem empty_within : ({} : Zipper α).within around = around := by
  obtain ⟨outer, inner⟩ := around
  simp only [within, nest, Forest.append_nil]

variable (zipper : Zipper α) (label : α)

theorem within_add : (zipper.add label).within around = (zipper.within around).add label :=
  nest_append around zipper.outer zipper.inner (.leaf label)

theorem within_descend :
    (zipper.descend label).within around = (zipper.within around).descend label :=
  rfl

variable {zipper}

theorem within_ascend (h : zipper.outer ≠ []) :
    zipper.ascend.within around = (zipper.within around).ascend := by
  obtain ⟨outer, inner⟩ := zipper
  cases outer with
  | nil => exact absurd rfl h
  | cons level outer => exact nest_append around outer level.before (.cons level.label inner .nil)

/-- The label above what comes next is that of the inner zipper, if it has one. -/
theorem above?_within (h : zipper.outer ≠ []) :
    above? (zipper.within around).outer = above? zipper.outer := by
  obtain ⟨outer, inner⟩ := zipper
  cases outer with
  | nil => exact absurd rfl h
  | cons level outer => rfl

/-- The label above what comes next is that around the inner zipper, if that has none. -/
theorem within_of_nil (h : zipper.outer = []) :
    zipper.within around = ⟨around.outer, around.inner ++ zipper.inner⟩ := by
  rw [within, h, nest]

end Zipper

/-! ## What a piece adds -/

namespace Draft

variable {K : Type}

/-- The kind of the innermost open group around the place of a zipper. -/
def innermostOf (zipper : Zipper (Entry K)) : Option K :=
  (Zipper.above? zipper.outer).bind (·.role.kind?)

theorem innermost?_eq (draft : Draft K) :
    draft.innermost? = innermostOf (draft.zipper.map Entry.unplaced) := by
  obtain ⟨⟨outer, inner⟩, notes⟩ := draft
  cases outer <;> rfl

/-- An entry of a piece, without its place. -/
def bare (role : Role K) (raw : List Char) (lead trail : Option String := none) : Entry K :=
  ⟨role, String.ofList raw, lead, trail, .point .start ""⟩

/-- The tree after one more piece, apart from places. -/
def grow (zipper : Zipper (Entry K)) (use : Use K) (raw : List Char) : Zipper (Entry K) :=
  match use with
  | .token kind _ => zipper.add (bare (.token kind) raw)
  | .opening kind lead => (zipper.descend (bare (.group kind) [] lead)).add (bare (.opening kind) raw)
  | .closing kind trail => (zipper.add (bare (.closing kind) raw none trail)).ascend

/-- There is nothing to complain about a piece where a group is the innermost one. -/
def Admits (innermost : Option K) : Use K → Prop
  | .token _ complaint => complaint = none
  | .opening _ _ => True
  | .closing kind _ => innermost = some kind

/-- What is added at the place of a zipper within another one is added to the whole. -/
theorem grow_within {zipper : Zipper (Entry K)} {use : Use K} (admits : Admits (innermostOf zipper) use)
    (around : Zipper (Entry K)) (raw : List Char) :
    (grow zipper use raw).within around = grow (zipper.within around) use raw := by
  cases use with
  | token kind complaint => exact Zipper.within_add around zipper _
  | opening kind lead =>
    rw [grow, Zipper.within_add, Zipper.within_descend]
    rfl
  | closing kind trail =>
    have houter : (zipper.add (bare (.closing kind) raw none trail)).outer ≠ [] := by
      intro h
      have hnone : innermostOf zipper = none := congrArg (fun outer => (Zipper.above? outer).bind _) h
      cases hnone.symm.trans admits
    rw [grow, Zipper.within_ascend around houter, Zipper.within_add]
    rfl

variable [DecidableEq K] {draft next : Draft K} {options : ParserOptions} {place : Location}
  {use : Use K} {raw : List Char}

/-- Where complaints are errors, only pieces without a complaint are put. -/
theorem admits_of_put (throws : options.errorMode = .throw)
    (h : draft.put options place use raw = .ok next) : Admits draft.innermost? use := by
  cases use with
  | token kind complaint =>
    cases complaint with
    | none => rfl
    | some complaint =>
      rw [put, throws] at h
      cases h
  | opening kind lead => trivial
  | closing kind trail =>
    rw [put] at h
    split at h
    next hkind => exact hkind
    next => cases h

/-- A piece without a complaint is put. -/
theorem exists_put (h : Admits draft.innermost? use) (options : ParserOptions) (place : Location)
    (raw : List Char) : ∃ next, draft.put options place use raw = .ok next := by
  cases use with
  | token kind complaint =>
    obtain rfl : complaint = none := h
    exact ⟨_, rfl⟩
  | opening kind lead => exact ⟨_, rfl⟩
  | closing kind trail =>
    have hkind : draft.innermost? = some kind := h
    rw [put, if_pos hkind]
    exact ⟨_, rfl⟩

/-- A piece that is put grows the tree. -/
theorem map_zipper_of_put (h : draft.put options place use raw = .ok next) :
    next.zipper.map Entry.unplaced = grow (draft.zipper.map Entry.unplaced) use raw := by
  cases use with
  | token kind complaint =>
    rw [zipper_of_put_token h, Zipper.map_add]
    rfl
  | opening kind lead =>
    cases h
    rw [Zipper.map_add, Zipper.map_descend]
    rfl
  | closing kind trail =>
    rw [put] at h
    split at h
    next =>
      cases h
      rw [Zipper.map_ascend, Zipper.map_add]
      rfl
    next => cases h

/-- Scanning begins with the first piece. -/
theorem scan_cons {cut : Cut K} {c : Char} {cs : List Char} {more : Nat}
    (hcut : cut draft.innermost? c cs = some (use, more))
    (hput : draft.put options place use (c :: cs.take more) = .ok next) :
    draft.scan cut options place (c :: cs) =
      next.scan cut options (place.advance (c :: cs.take more)) (cs.drop more) := by
  rw [scan]
  simp only [hcut, hput]

/-- A draft that a text was scanned to has a group open if and only if a tree is around its place. -/
theorem unclosed?_eq_none_iff {cut : Cut K} {text : List Char} {stop : Location}
    (hscan : ({} : Draft K).scan cut options .start text = .ok (draft, stop)) :
    draft.unclosed? = none ↔ draft.zipper.outer = [] := by
  rw [← (grouped_of_scan hscan).innermost?_eq_none, innermost?, unclosed?]
  cases draft.zipper.outer.head? with
  | none => simp
  | some level => simp

/-- **In strict mode, a text is read if it is scanned and leaves no group open.** -/
theorem read_eq_ok_iff (strict : options.strict = true) {cut : Cut K} {text : List Char}
    {content : Content K} :
    read cut options text = .ok content ↔ ∃ draft stop,
      ({} : Draft K).scan cut options .start text = .ok (draft, stop) ∧ draft.zipper.outer = [] ∧
      content = ⟨draft.zipper.inner ++
        .leaf ⟨.eos, "", none, none, .point stop options.sourceLabel⟩, draft.notes,
        String.ofList text, options.sourceLabel⟩ := by
  rw [read]
  cases hscan : ({} : Draft K).scan cut options .start text with
  | error error => simp [bind, Except.bind]
  | ok result =>
    obtain ⟨draft, stop⟩ := result
    have hunclosed := unclosed?_eq_none_iff hscan
    have hread (result : Except (ParseError K) (Forest (Entry K))) :
        (result >>= fun forest =>
            .ok (⟨forest, draft.notes, String.ofList text, options.sourceLabel⟩ : Content K)) =
          result.map fun forest =>
            ⟨forest, draft.notes, String.ofList text, options.sourceLabel⟩ := by
      cases result <;> rfl
    show (draft.finish options stop >>= fun forest => .ok (⟨forest, draft.notes, _, _⟩ : Content K)) =
      .ok content ↔ _
    rw [hread, finish, strict]
    cases hopen : draft.unclosed? with
    | none =>
      have houter := hunclosed.1 hopen
      have hforest : draft.zipper.forest = draft.zipper.inner := by
        rw [Zipper.forest, houter]
        rfl
      simp [Except.map, houter, hforest, eq_comm]
    | some group =>
      have houter : draft.zipper.outer ≠ [] := by simp [← hunclosed, hopen]
      simp [Except.map, houter]

end Draft

end GlobTree
