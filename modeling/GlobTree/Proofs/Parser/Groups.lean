import GlobTree.Proofs.Parser.Tiling
import GlobTree.Proofs.Tree.Order
/-!
# The groups of a draft

The trees in front of the place of a draft are finished: nothing is ever added to them, and a group
among them has its closing token as the last node (`Draft.Whole`). The trees around the place are
groups that have begun with their opening token and have no closing token (`Draft.Begun`). Every
piece that is put keeps this (`Draft.Grouped.put`).

When the text has come to its end, the groups without a closing token are therefore those around the
place (`Draft.Grouped.unclosed_forest`), and every group has its opening token first
(`Draft.Grouped.headed`).
-/

namespace GlobTree

namespace Draft

variable {K : Type}

/-- A forest begins with the opening token of a group, at the place of the group. -/
def Opens (kind : K) (label : Entry K) (below : Forest (Entry K)) : Prop :=
  ∃ opening rest, below = .cons opening .nil rest ∧ opening.role = .opening kind ∧
    label.span = .point opening.span.start opening.span.source

/-- A tree that is finished: a group from its opening to its closing token, or a single node. -/
def Whole (label : Entry K) (below : Forest (Entry K)) : Prop :=
  match label.role with
  | .root | .eos => False
  | .token _ | .opening _ | .closing _ => True
  | .group kind => Opens kind label below ∧ below.roots.getLast?.map (·.role) = some (.closing kind)

/-- A tree that is not finished: a group with its opening token and without a closing one. -/
def Begun (label : Entry K) (below : Forest (Entry K)) : Prop :=
  ∃ kind, label.role = .group kind ∧ Opens kind label below ∧
    ∀ entry ∈ below.roots, entry.role ≠ .closing kind

/-- All trees around a place have begun, and all trees in front of these are finished. -/
def GroupedAround : List (Level (Entry K)) → Forest (Entry K) → Prop
  | [], _ => True
  | level :: outer, inner =>
    Begun level.label inner ∧ level.before.Each Whole ∧ GroupedAround outer level.before

/-- The trees in front of the place are finished, and those around it have begun. -/
structure Grouped (draft : Draft K) : Prop where
  inner : draft.zipper.inner.Each Whole
  around : GroupedAround draft.zipper.outer draft.zipper.inner

theorem grouped_empty : ({} : Draft K).Grouped := ⟨trivial, trivial⟩

section

variable {kind : K} {label : Entry K} {below more inner : Forest (Entry K)}
  {outer : List (Level (Entry K))}

theorem Opens.append (h : Opens kind label below) (more : Forest (Entry K)) :
    Opens kind label (below ++ more) := by
  obtain ⟨opening, rest, rfl, hrest⟩ := h
  exact ⟨opening, rest ++ more, rfl, hrest⟩

theorem Begun.append (h : Begun label below)
    (hmore : ∀ entry ∈ more.roots, ∀ kind, entry.role ≠ .closing kind) :
    Begun label (below ++ more) := by
  obtain ⟨kind, hkind, hopens, hroots⟩ := h
  refine ⟨kind, hkind, hopens.append more, fun entry hentry => ?_⟩
  rw [Forest.roots_append, List.mem_append] at hentry
  rcases hentry with hentry | hentry
  · exact hroots entry hentry
  · exact hmore entry hentry kind

/-- More trees are put in front of the place, none of which is a closing token. -/
theorem GroupedAround.append (h : GroupedAround outer inner)
    (hmore : ∀ entry ∈ more.roots, ∀ kind, entry.role ≠ .closing kind) :
    GroupedAround outer (inner ++ more) := by
  cases outer with
  | nil => trivial
  | cons level outer => exact ⟨h.1.append hmore, h.2⟩

/-- The innermost tree around the place counts as one in front of the place. -/
theorem GroupedAround.close {level : Level (Entry K)} (h : GroupedAround (level :: outer) inner)
    (below : Forest (Entry K)) : GroupedAround outer (level.close below) := by
  obtain ⟨⟨kind, hkind, -⟩, -, houter⟩ := h
  refine houter.append fun entry hentry other => ?_
  obtain rfl := List.mem_singleton.1 hentry
  rw [hkind]
  exact fun h => by cases h

end

/-- The innermost tree around the place is a group. -/
theorem Grouped.exists_kind {draft : Draft K} (grouped : draft.Grouped) {level : Level (Entry K)}
    {outer : List (Level (Entry K))} (houter : draft.zipper.outer = level :: outer) :
    ∃ kind, level.label.role = .group kind := by
  have haround := grouped.around
  rw [houter] at haround
  obtain ⟨⟨kind, hkind, -⟩, -⟩ := haround
  exact ⟨kind, hkind⟩

/-- No kind is innermost if and only if there is no tree around the place. -/
theorem Grouped.innermost?_eq_none {draft : Draft K} (grouped : draft.Grouped) :
    draft.innermost? = none ↔ draft.zipper.outer = [] := by
  rw [innermost?]
  cases houter : draft.zipper.outer with
  | nil => simp
  | cons level outer =>
    obtain ⟨kind, hkind⟩ := grouped.exists_kind houter
    simp [hkind, Role.kind?]

/-! ## The heads of groups -/

/-- What holds of every label in a finished text: it is not the end, and if it is a group, then its
opening token comes first. -/
def Headed (label : Entry K) (below : Forest (Entry K)) : Prop :=
  label.role ≠ .eos ∧ ∀ kind, label.role = .group kind → Opens kind label below

theorem Whole.headed {label : Entry K} {below : Forest (Entry K)} (h : Whole label below) :
    Headed label below := by
  rw [Whole] at h
  cases hrole : label.role with
  | root | eos => simp [hrole] at h
  | token | opening | closing => exact ⟨by simp [hrole], fun kind hkind => by simp [hrole] at hkind⟩
  | group kind =>
    rw [hrole] at h
    refine ⟨by simp [hrole], fun other hother => ?_⟩
    rw [hrole] at hother
    cases hother
    exact h.1

theorem Begun.headed {label : Entry K} {below : Forest (Entry K)} (h : Begun label below) :
    Headed label below := by
  obtain ⟨kind, hkind, hopens, -⟩ := h
  refine ⟨by simp [hkind], fun other hother => ?_⟩
  rw [hkind] at hother
  cases hother
  exact hopens

theorem GroupedAround.headed {outer : List (Level (Entry K))} {inner : Forest (Entry K)}
    (h : GroupedAround outer inner) (hinner : inner.Each Headed) :
    (Zipper.mk outer inner).forest.Each Headed := by
  induction outer generalizing inner with
  | nil => exact hinner
  | cons level outer ih =>
    have hbefore := h.2.1.mono fun _ _ => Whole.headed
    exact ih (h.close inner) (Forest.each_append.2 ⟨hbefore, h.1.headed, hinner, trivial⟩)

/-- **Every group of a draft has its opening token first.** -/
theorem Grouped.headed {draft : Draft K} (grouped : draft.Grouped) :
    draft.zipper.forest.Each Headed :=
  grouped.around.headed (grouped.inner.mono fun _ _ => Whole.headed)

/-! ## What a piece does -/

variable [DecidableEq K]

/-- **Putting a piece of text keeps trees finished or begun.** -/
theorem Grouped.put {draft next : Draft K} {options : ParserOptions} {place : Location}
    {use : Use K} {raw : List Char} (grouped : draft.Grouped)
    (h : draft.put options place use raw = .ok next) : next.Grouped := by
  obtain ⟨hinner, haround⟩ := grouped
  cases use with
  | token kind complaint =>
    let token := entryOf (.token kind) raw place options.sourceLabel
    have hroots : ∀ entry ∈ (Forest.leaf token).roots, ∀ kind, entry.role ≠ .closing kind := by
      intro entry hentry other
      obtain rfl := List.mem_singleton.1 hentry
      exact fun h => by cases h
    constructor <;> rw [zipper_of_put_token h]
    · exact Forest.each_append.2 ⟨hinner, trivial, trivial, trivial⟩
    · exact haround.append hroots
  | opening kind lead =>
    cases h
    refine ⟨⟨trivial, trivial, trivial⟩, ⟨kind, rfl, ⟨_, _, rfl, rfl, rfl⟩, ?_⟩, hinner, haround⟩
    intro entry hentry
    obtain rfl := List.mem_singleton.1 hentry
    exact fun h => by cases h
  | closing kind trail =>
    rw [Draft.put] at h
    split at h
    case isFalse => cases h
    case isTrue hkind =>
      cases h
      obtain ⟨⟨outer, inner⟩, notes⟩ := draft
      cases outer with
      | nil => cases hkind
      | cons level outer =>
        let closing : Entry K :=
          { entryOf (.closing kind) raw place options.sourceLabel with trail := trail }
        obtain ⟨⟨group, hgroup, hopens, -⟩, hbefore, -⟩ := id haround
        have hsame : some group = some kind := by
          rwa [innermost?, List.head?_cons, Option.bind_some, hgroup] at hkind
        obtain rfl := Option.some.inj hsame
        have hlast : (inner ++ Forest.leaf closing).roots.getLast?.map (·.role) =
            some (.closing group) := by
          rw [Forest.roots_append]
          simp [Forest.leaf, Forest.roots, closing, entryOf]
        have hwhole : Whole level.label (inner ++ .leaf closing) := by
          rw [Whole, hgroup]
          exact ⟨hopens.append _, hlast⟩
        refine ⟨Forest.each_append.2 ⟨hbefore, hwhole, ?_, trivial⟩, haround.close _⟩
        exact Forest.each_append.2 ⟨hinner, trivial, trivial, trivial⟩

/-- The trees of a draft that a text was scanned to are finished or begun. -/
theorem grouped_of_scan {cut : Cut K} {options : ParserOptions} {draft : Draft K}
    {text : List Char} {stop : Location}
    (hscan : ({} : Draft K).scan cut options .start text = .ok (draft, stop)) : draft.Grouped := by
  let P (draft : Draft K) (_ : Location) (_ : List Char) : Prop := draft.Grouped
  have hstart : P {} .start text := grouped_empty
  exact scan_induction (P := P) (fun grouped _ hput => grouped.put hput) hstart hscan

/-! ## Groups that are not closed -/

theorem Whole.isUnclosed {label : Entry K} {below : Forest (Entry K)} (h : Whole label below) :
    label.isUnclosed below = false := by
  rw [Whole] at h
  rw [Entry.isUnclosed]
  cases hrole : label.role with
  | group kind =>
    rw [hrole] at h
    simp [h.2]
  | root | eos | token | opening | closing => rfl

theorem Begun.isUnclosed {label : Entry K} {below : Forest (Entry K)} (h : Begun label below) :
    label.isUnclosed below = true := by
  obtain ⟨kind, hkind, -, hroots⟩ := h
  rw [Entry.isUnclosed, hkind]
  simp only [bne_iff_ne, ne_eq, Option.map_eq_some_iff, not_exists, not_and]
  exact fun entry hentry => hroots entry (List.mem_of_getLast? hentry)

theorem unclosed_of_whole {f : Forest (Entry K)} (h : f.Each Whole) : f.unclosed = [] := by
  induction f with
  | nil => rfl
  | cons label below rest ihb ihr =>
    rw [Forest.unclosed, h.1.isUnclosed, ihb h.2.1, ihr h.2.2]
    rfl

theorem GroupedAround.unclosed {outer : List (Level (Entry K))} {inner : Forest (Entry K)}
    (h : GroupedAround outer inner) :
    (Zipper.mk outer inner).forest.unclosed = (outer.map (·.label)).reverse ++ inner.unclosed := by
  induction outer generalizing inner with
  | nil => rfl
  | cons level outer ih =>
    have hclose : (level.close inner).unclosed = level.label :: inner.unclosed := by
      rw [Level.close, Forest.unclosed_append, unclosed_of_whole h.2.1, Forest.unclosed,
        h.1.isUnclosed]
      simp [Forest.unclosed]
    have hforest : (Zipper.mk (level :: outer) inner).forest =
      (Zipper.mk outer (level.close inner)).forest := rfl
    rw [hforest, ih (h.close inner), hclose]
    simp

/-- **The groups of a draft that are not closed are those around its place.** -/
theorem Grouped.unclosed_forest {draft : Draft K} (grouped : draft.Grouped) :
    draft.zipper.forest.unclosed = (draft.zipper.outer.map (·.label)).reverse := by
  have h := grouped.around.unclosed
  rwa [unclosed_of_whole grouped.inner, List.append_nil] at h

/-- The end of the text, which comes after all groups, is none. -/
theorem Grouped.unclosed_forest_eos {draft : Draft K} (grouped : draft.Grouped) {eos : Entry K}
    (heos : eos.role = .eos) :
    (draft.zipper.forest ++ .leaf eos).unclosed = (draft.zipper.outer.map (·.label)).reverse := by
  have hnone : (Forest.leaf eos).unclosed = [] := by
    rw [Forest.leaf, Forest.unclosed, Entry.isUnclosed, heos]
    rfl
  rw [Forest.unclosed_append, grouped.unclosed_forest, hnone, List.append_nil]

end Draft

/-- A table of handlers that cuts texts in a given way keeps drafts grouped besides. -/
theorem Obeys.grouped {K M : Type} [DecidableEq K] {handlers : List (Handler K M)}
    {cut : Draft.Cut K} {sound : Draft K → Prop} (obeys : Obeys handlers cut sound) :
    Obeys handlers cut fun draft => sound draft ∧ draft.Grouped where
  answers follows hsound text := obeys.answers follows hsound.1 text
  keeps hsound hcut hput := ⟨obeys.keeps hsound.1 hcut hput, hsound.2.put hput⟩

end GlobTree
