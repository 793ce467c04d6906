import GlobTree.Export
import GlobTree.Proofs.Results
import GlobTree.Proofs.Tree.Made
/-!
# Ways through a document

There are several ways to go through the nodes below the root of a document. An iterator keeps a
stack of numbers, takes the first one off and puts its children there instead (`Arena.Iterates`). The
JSON form writes a node around those of its children. From a node, parents lead up to the root, and
among its siblings it has an index.

Where the numbers below the root make a tree (`Arena.Mirrors`), all of these follow the tree: the
iterator comes to an end and yields its preorder (`Arena.iterates_roots`), the JSON form is the tree
written from the leaves up (`Arena.map_nodeToJson`), and a node is as deep as it is nested
(`Arena.Rooted.depth?_of_mem_levels`).
-/

namespace GlobTree

namespace Forest

variable {α β : Type}

/-- The labels in preorder with their levels, where the first nodes of the trees have the given
level. -/
def levels : (level : Nat) → Forest α → List (α × Nat)
  | _, nil => []
  | level, cons label below rest =>
    (label, level) :: (below.levels (level + 1) ++ rest.levels level)

/-- What is written for the trees, if every node is written around what is written below it. -/
def fold (write : α → List β → β) : Forest α → List β
  | nil => []
  | cons label below rest => write label (below.fold write) :: rest.fold write

theorem map_fst_levels (f : Forest α) (level : Nat) : (f.levels level).map Prod.fst = f.preorder := by
  induction f generalizing level with
  | nil => rfl
  | cons label below rest ihb ihr =>
    rw [levels, List.map_cons, List.map_append, ihb, ihr, preorder]

end Forest

namespace Arena

variable {K : Type} {arena : Arena K} {tree f : Forest NodeId} {id child : NodeId}

/-! ## The iterator -/

/-- An iteration that starts with a stack comes to an end and yields numbers. In each step it takes
the first number off the stack, and puts the children of that node there. -/
inductive Iterates (arena : Arena K) : (stack yielded : List NodeId) → Prop
  | done : arena.Iterates [] []
  | next {id : NodeId} {children : Array NodeId} {stack yielded : List NodeId}
      (found : arena.children? id = some children)
      (later : arena.Iterates (children.toList ++ stack) yielded) :
      arena.Iterates (id :: stack) (id :: yielded)

/-- There is only one iteration. -/
theorem Iterates.unique {stack yielded other : List NodeId} (h : arena.Iterates stack yielded)
    (hother : arena.Iterates stack other) : other = yielded := by
  induction h generalizing other with
  | done =>
    cases hother
    rfl
  | next found _ ih =>
    cases hother with
    | next found' later' =>
      obtain rfl := Option.some.inj (found.symm.trans found')
      rw [ih later']

/-- **A forest of numbers is yielded in preorder**, and after it what the rest of the stack yields. -/
theorem iterates_roots (mirrors : f.Each arena.Mirrors) {stack yielded : List NodeId}
    (h : arena.Iterates stack yielded) :
    arena.Iterates (f.roots ++ stack) (f.preorder ++ yielded) := by
  induction f generalizing stack yielded with
  | nil => exact h
  | cons id below rest ihb ihr =>
    obtain ⟨hid, hbelow, hrest⟩ := mirrors
    obtain ⟨children, hchildren, hroots⟩ := Option.map_eq_some_iff.1 hid
    rw [Forest.preorder, List.cons_append, List.append_assoc]
    refine .next hchildren ?_
    rw [hroots]
    exact ihb hbelow (ihr hrest h)

/-! ## The JSON form -/

/-- The JSON form of a node, given those of its children. -/
def nodeJson [ToString K] (arena : Arena K) (id : NodeId) (nodes : List Json) : Json :=
  match arena.node? id with
  | none => .null
  | some node =>
    .object [
      ("type", .text (toString node.role)),
      ("value", .text node.raw),
      ("prefix", .ofText? node.lead),
      ("suffix", .ofText? node.trail),
      ("position", node.span.toJson),
      ("nodes", .list nodes)]

/-- **A forest of numbers is written as it is**, if the depth suffices. -/
theorem map_nodeToJson [ToString K] (mirrors : f.Each arena.Mirrors) {n : Nat} (hn : f.size ≤ n) :
    f.roots.map (arena.nodeToJson n) = f.fold arena.nodeJson := by
  induction f generalizing n with
  | nil => rfl
  | cons id below rest ihb ihr =>
    obtain ⟨hid, hbelow, hrest⟩ := mirrors
    rw [Forest.size] at hn
    obtain ⟨n, rfl⟩ : ∃ m, n = m + 1 := ⟨n - 1, by omega⟩
    have hnode : arena.nodeToJson (n + 1) id =
        arena.nodeJson id (below.roots.map (arena.nodeToJson n)) := by
      obtain ⟨children, hchildren, hroots⟩ := Option.map_eq_some_iff.1 hid
      obtain ⟨node, hnode, rfl⟩ := Option.map_eq_some_iff.1 hchildren
      rw [nodeToJson, nodeJson, hnode, ← hroots]
    rw [Forest.roots, List.map_cons, hnode, ihb hbelow (by omega), ihr hrest (by omega), Forest.fold]

/-! ## Parents -/

theorem depthWithin?_of_parent? {parent : NodeId} (h : arena.parent? id = some (some parent))
    (n : Nat) : arena.depthWithin? (n + 1) id = (arena.depthWithin? n parent).map (· + 1) := by
  cases hdepth : arena.depthWithin? n parent <;> simp [depthWithin?, h, hdepth]

/-- More steps lead to the same depth. -/
theorem depthWithin?_of_le {n m depth : Nat} (h : arena.depthWithin? n id = some depth)
    (hle : n ≤ m) : arena.depthWithin? m id = some depth := by
  induction n generalizing m id depth with
  | zero => cases h
  | succ n ih =>
    obtain ⟨m, rfl⟩ : ∃ k, m = k + 1 := ⟨m - 1, by omega⟩
    rcases hparent : arena.parent? id with _ | _ | parent
    · rw [depthWithin?, hparent] at h
      cases h
    · rw [depthWithin?, hparent] at h ⊢
      exact h
    · rw [depthWithin?_of_parent? hparent] at h ⊢
      obtain ⟨above, habove, rfl⟩ := Option.map_eq_some_iff.1 h
      rw [ih habove (by omega), Option.map_some]

/-- A node below another one names it as its parent. -/
theorem Consistent.parent?_of_mem_roots (consistent : arena.Consistent) {below : Forest NodeId}
    (mirrors : arena.Mirrors id below) (hchild : child ∈ below.roots) :
    arena.parent? child = some (some id) := by
  have hchildren := consistent.children id (lt_size_of_children? mirrors)
  rw [mirrors] at hchildren
  rw [Option.some.inj hchildren] at hchild
  exact of_decide_eq_true (List.mem_filter.1 hchild).2

/-- The root is at depth zero. -/
theorem Consistent.depth?_root (consistent : arena.Consistent) : arena.depth? rootId = some 0 := by
  obtain ⟨n, hn⟩ : ∃ n, arena.size = n + 1 :=
    ⟨arena.size - 1, (Nat.sub_add_cancel consistent.size_pos).symm⟩
  rw [depth?, hn, depthWithin?, consistent.root]
  rfl

/-- **A node stands among its siblings** where its index says. -/
theorem Consistent.exists_siblings (consistent : arena.Consistent) (hid : id < arena.size)
    (hne : id ≠ rootId) :
    ∃ siblings index, arena.siblings? id = some siblings ∧
      arena.indexInParent? id = some (some index) ∧ siblings[index]? = some id := by
  obtain ⟨parent, hle, hparent⟩ := consistent.parent id hid hne
  obtain ⟨siblings, hsiblings, hlist⟩ :=
    Option.map_eq_some_iff.1 (consistent.children parent (Nat.lt_of_le_of_lt hle hid))
  have hmem : id ∈ siblings.toList := by
    rw [hlist]
    exact List.mem_filter.2 ⟨List.mem_range.2 hid, decide_eq_true hparent⟩
  obtain ⟨index, hindex⟩ :=
    Option.isSome_iff_exists.1 (Array.isSome_idxOf?.2 (Array.mem_toList_iff.1 hmem))
  have hsame : arena.siblings? id = some siblings := by
    rw [siblings?, hparent]
    exact hsiblings
  refine ⟨siblings, index, hsame, ?_, (idxOf?_eq_some_iff.1 hindex).1⟩
  rw [indexInParent?, hsame, Option.map_some, hindex]

namespace Rooted

variable (h : arena.Rooted tree) (consistent : arena.Consistent)
include h consistent

/-- A child is one level deeper than its parent. -/
theorem depth?_of_parent? (hid : id ∈ tree.preorder)
    (hchild : arena.parent? child = some (some id)) {depth : Nat} (hdepth : arena.depth? id = some depth) :
    arena.depth? child = some (depth + 1) := by
  have hne : id ≠ child := by
    rintro rfl
    refine h.notMem_of_parent?_self ?_ hchild hid
    rintro rfl
    cases consistent.root.symm.trans hchild
  have hlt := Nat.lt_of_le_of_ne (consistent.parent_le hchild) hne
  have hsize := lt_size_of_parent? hchild
  obtain ⟨n, hn⟩ : ∃ n, arena.size = n + 1 := ⟨arena.size - 1, by omega⟩
  obtain ⟨above, habove⟩ := Option.isSome_iff_exists.1
    (h.isSome_depthWithin? consistent hid (n := n) (by omega))
  have hsame := depthWithin?_of_le habove (m := arena.size) (by omega)
  rw [← depth?, hdepth] at hsame
  cases hsame
  rw [depth?, hn, depthWithin?_of_parent? hchild, habove, Option.map_some]

/-- Nodes are as deep as they are nested, if this is so of the first nodes of all trees. -/
theorem depth?_of_mem_levels_of_roots (mirrors : f.Each arena.Mirrors)
    (hmem : ∀ id ∈ f.preorder, id ∈ tree.preorder) {level : Nat}
    (hroots : ∀ id ∈ f.roots, arena.depth? id = some level) :
    ∀ entry ∈ f.levels level, arena.depth? entry.1 = some entry.2 := by
  induction f generalizing level with
  | nil => exact fun _ h => absurd h List.not_mem_nil
  | cons id below rest ihb ihr =>
    obtain ⟨hid, hbelow, hrest⟩ := mirrors
    obtain ⟨hmemId, hmemBelow, hmemRest⟩ := Forest.forall_mem_preorder_cons.1 hmem
    obtain ⟨hdepth, hdepthRest⟩ := List.forall_mem_cons.1 hroots
    rw [Forest.levels, List.forall_mem_cons, List.forall_mem_append]
    refine ⟨hdepth, ihb hbelow hmemBelow fun child hchild => ?_, ihr hrest hmemRest hdepthRest⟩
    exact h.depth?_of_parent? consistent hmemId (consistent.parent?_of_mem_roots hid hchild) hdepth

omit h in
/-- **Nodes are as deep as they are nested.** -/
theorem depth?_of_mem_levels {below : Forest NodeId} (h : arena.Rooted (.cons rootId below .nil)) :
    ∀ entry ∈ below.levels 1, arena.depth? entry.1 = some entry.2 := by
  have hroots : ∀ id ∈ (Forest.cons rootId below .nil).roots, arena.depth? id = some 0 :=
    List.forall_mem_singleton.2 consistent.depth?_root
  have hall := h.depth?_of_mem_levels_of_roots consistent h.mirrors (fun _ hid => hid) hroots
  intro entry hentry
  exact hall entry (List.mem_cons_of_mem _ (List.mem_append_left _ hentry))

end Rooted

end Arena

end GlobTree
