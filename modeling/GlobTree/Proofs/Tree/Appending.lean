import GlobTree.Proofs.Tree.Order
import Mathlib.Data.List.Nodup
import Mathlib.Data.List.Perm.Subperm
/-!
# Documents that are put together by hand

Nodes can be added to a document in any order and below any parent, also below the number that is
just about to be given. Whatever is added, the children of a node are those that name it as their
parent, in the order of their numbers (`Arena.Consistent`), and a parent has a smaller number than
its child or is the child itself.

The nodes that are reached from the root make a forest of numbers without repetition, which grows by
one leaf with each node below a node in it (`Forest.graft`, `Arena.Rooted`). They are the nodes that
have a depth, and all but the root are visited once in the order of the document
(`Arena.Rooted.order_eq`). A node that is its own parent is never reached, and neither are the nodes
below it. So the document is a tree exactly if there is no such node (`isTree_appendAll?`).
-/

namespace GlobTree

/-! ## Grafting -/

namespace Forest

variable {α : Type}

theorem length_preorder (f : Forest α) : f.preorder.length = f.size := by
  induction f with
  | nil => rfl
  | cons label below rest ihb ihr =>
    rw [preorder, size, List.length_cons, List.length_append, ihb, ihr]
    omega

/-- What follows from the property of a label together with what is below it holds of all labels. -/
theorem Each.of_mem {P : α → Forest α → Prop} {p : α → Prop} {f : Forest α} (h : f.Each P)
    (hp : ∀ label below, P label below → p label) : ∀ label ∈ f.preorder, p label := by
  induction f with
  | nil => exact fun _ h => absurd h List.not_mem_nil
  | cons label below rest ihb ihr =>
    exact forall_mem_preorder_cons.2 ⟨hp label below h.1, ihb h.2.1, ihr h.2.2⟩

variable [DecidableEq α] (parent new : α)

/-- A new leaf as the last one below a label, wherever the label stands. -/
def graft : Forest α → Forest α
  | nil => nil
  | cons label below rest =>
    cons label
      (if label = parent then below.graft ++ leaf new else below.graft)
      rest.graft

@[simp] theorem roots_graft (f : Forest α) : (f.graft parent new).roots = f.roots := by
  induction f with
  | nil => rfl
  | cons label below rest _ ih => rw [graft, roots, roots, ih]

/-- The new label comes to the old ones, once for every place. -/
theorem count_preorder_graft (f : Forest α) (label : α) :
    (f.graft parent new).preorder.count label =
      (if label = new then f.preorder.count parent else 0) + f.preorder.count label := by
  induction f with
  | nil => simp [graft, preorder]
  | cons other below rest ihb ihr =>
    have hbelow : (if other = parent then below.graft parent new ++ leaf new
        else below.graft parent new).preorder.count label =
      (if other = parent ∧ label = new then 1 else 0) +
        (below.graft parent new).preorder.count label := by
      by_cases hlabel : label = new
      · subst hlabel
        split <;> simp_all [Nat.add_comm]
      · split <;> simp_all [Ne.symm hlabel]
    rw [graft, preorder, preorder]
    simp only [List.count_cons, List.count_append, hbelow, ihb, ihr, beq_iff_eq]
    split_ifs <;> simp_all <;> omega

variable {parent new}

theorem mem_preorder_graft {f : Forest α} {label : α} :
    label ∈ (f.graft parent new).preorder ↔
      label = new ∧ parent ∈ f.preorder ∨ label ∈ f.preorder := by
  rw [← List.count_pos_iff, count_preorder_graft, ← List.count_pos_iff, ← List.count_pos_iff]
  split
  next heq => simp only [heq, true_and, Nat.add_pos_iff_pos_or_pos]
  next hne => simp only [hne, false_and, false_or, Nat.zero_add]

theorem nodup_preorder_graft {f : Forest α} (h : f.preorder.Nodup) (hnew : new ∉ f.preorder) :
    (f.graft parent new).preorder.Nodup := by
  rw [List.nodup_iff_count_le_one] at h ⊢
  intro label
  rw [count_preorder_graft]
  split
  next heq => rw [heq, List.count_eq_zero_of_not_mem hnew]; exact h parent
  next => rw [Nat.zero_add]; exact h label

/-- What holds of every label together with what is below it may change for the label that gets a new
leaf. -/
theorem Each.graft {P Q : α → Forest α → Prop} {f : Forest α} (h : f.Each P)
    (hparent : ∀ below, P parent below → Q parent (below.graft parent new ++ leaf new))
    (hother : ∀ label below, label ≠ parent → P label below → Q label (below.graft parent new))
    (hnew : parent ∈ f.preorder → Q new nil) : (f.graft parent new).Each Q := by
  induction f with
  | nil => trivial
  | cons label below rest ihb ihr =>
    obtain ⟨hlabel, hbelow, hrest⟩ := h
    have hb := ihb hbelow fun hmem =>
      hnew (List.mem_cons_of_mem label (List.mem_append_left rest.preorder hmem))
    have hr := ihr hrest fun hmem =>
      hnew (List.mem_cons_of_mem label (List.mem_append_right below.preorder hmem))
    rw [Forest.graft]
    split
    next heq =>
      subst heq
      exact ⟨hparent below hlabel, each_append.2 ⟨hb, hnew List.mem_cons_self, trivial, trivial⟩, hr⟩
    next hne => exact ⟨hother label below hne hlabel, hb, hr⟩

end Forest

variable {K : Type}

/-! ## One more node -/

namespace Arena

variable (arena : Arena K) (parent : Nat) (node : Node K) (id : Nat)

theorem append?_eq_some_iff {arena next : Arena K} {parent new : Nat} {node : Node K} :
    arena.append? parent node = some (new, next) ↔
      parent ≤ arena.size ∧ new = arena.size ∧ next = arena.add parent node := by
  have happend : arena.append? parent node =
    if parent ≤ arena.size then some (arena.size, arena.add parent node) else none := rfl
  rw [happend]
  split
  next h => simp [h, eq_comm]
  next h => simp [h]

/-- The nodes after one was added, which may be its own parent. -/
theorem node?_add :
    (arena.add parent node).node? id =
      if id = arena.size then
        some { node with
          parent := some parent
          children := if parent = arena.size then #[arena.size] else #[] }
      else (arena.node? id).map fun other =>
        if id = parent then { other with children := other.children.push arena.size } else other := by
  simp only [add, node?, size, Array.getElem?_modify, Array.getElem?_push]
  by_cases hid : id = arena.nodes.size
  · subst hid
    simp only [if_true]
    split
    next h => simp [h]
    next h => simp [h]
  · simp only [if_neg hid, eq_comm]
    split <;> simp

theorem parent?_add :
    (arena.add parent node).parent? id =
      if id = arena.size then some (some parent) else arena.parent? id := by
  rw [parent?, node?_add, parent?]
  split
  next => rfl
  next =>
    rw [Option.map_map]
    refine congrArg (Option.map · (arena.node? id)) (funext fun other => ?_)
    dsimp only [Function.comp_apply]
    split <;> rfl

theorem children?_add :
    ((arena.add parent node).children? id).map Array.toList =
      if id = arena.size then some (if parent = arena.size then [arena.size] else [])
      else ((arena.children? id).map Array.toList).map fun children =>
        if id = parent then children ++ [arena.size] else children := by
  rw [children?, node?_add, children?]
  split
  next =>
    dsimp only [Option.map_some]
    split <;> rfl
  next =>
    simp only [Option.map_map]
    refine congrArg (Option.map · (arena.node? id)) (funext fun other => ?_)
    dsimp only [Function.comp_apply]
    split <;> simp

/-! ## Parents and children -/

/-- All nodes but the root have a parent, which does not come after them, and the children of a node
are those that have it as their parent. -/
structure Consistent (arena : Arena K) : Prop where
  root : arena.parent? rootId = some none
  parent : ∀ id < arena.size, id ≠ rootId → ∃ parent ≤ id, arena.parent? id = some (some parent)
  children : ∀ id < arena.size, (arena.children? id).map Array.toList =
    some ((List.range arena.size).filter fun child => arena.parent? child = some (some id))

variable {arena} {parent id}

theorem lt_size_of_parent? {above : Option NodeId} (h : arena.parent? id = some above) :
    id < arena.size := by
  obtain ⟨node, hnode, -⟩ := Option.map_eq_some_iff.1 h
  exact lt_size_of_node? hnode

theorem lt_size_of_children? {children : List NodeId}
    (h : (arena.children? id).map Array.toList = some children) : id < arena.size := by
  obtain ⟨nodes, hnodes, -⟩ := Option.map_eq_some_iff.1 h
  obtain ⟨node, hnode, -⟩ := Option.map_eq_some_iff.1 hnodes
  exact lt_size_of_node? hnode

theorem consistent_empty (label : String) : (empty label : Arena K).Consistent where
  root := rfl
  parent id hid hne := absurd (Nat.lt_one_iff.1 hid) hne
  children id hid := by
    obtain rfl := Nat.lt_one_iff.1 hid
    rfl

namespace Consistent

variable (h : arena.Consistent)
include h

theorem size_pos : rootId < arena.size := lt_size_of_parent? h.root

/-- The parent of a node does not come after it. -/
theorem parent_le (hparent : arena.parent? id = some (some parent)) : parent ≤ id := by
  have hne : id ≠ rootId := by
    rintro rfl
    rw [h.root] at hparent
    cases hparent
  obtain ⟨other, hle, hother⟩ := h.parent id (lt_size_of_parent? hparent) hne
  rw [hparent] at hother
  cases hother
  exact hle

omit h in
/-- The nodes with a parent after one was added. -/
theorem filter_add (parent id : Nat) (node : Node K) :
    ((List.range (arena.size + 1)).filter fun child =>
        (arena.add parent node).parent? child = some (some id)) =
      ((List.range arena.size).filter fun child => arena.parent? child = some (some id)) ++
        if id = parent then [arena.size] else [] := by
  have hold : ((List.range arena.size).filter fun child =>
      (arena.add parent node).parent? child = some (some id)) =
        (List.range arena.size).filter fun child => arena.parent? child = some (some id) := by
    refine List.filter_congr fun child hchild => ?_
    rw [parent?_add, if_neg (Nat.ne_of_lt (List.mem_range.1 hchild))]
  rw [List.range_succ, List.filter_append, hold, List.filter_singleton, parent?_add, if_pos rfl]
  by_cases hid : id = parent
  · simp [hid]
  · simp [hid, Ne.symm hid]

/-- **Adding a node keeps parents and children consistent**, also if it is its own parent. -/
theorem add (hparent : parent ≤ arena.size) (node : Node K) :
    (arena.add parent node).Consistent where
  root := by rw [parent?_add, if_neg (Nat.ne_of_lt h.size_pos), h.root]
  parent id hid hne := by
    rw [parent?_add]
    split
    next heq => exact ⟨parent, heq ▸ hparent, rfl⟩
    next hother =>
      rw [size_add] at hid
      exact h.parent id (by omega) hne
  children id hid := by
    rw [size_add] at hid ⊢
    rw [children?_add, filter_add]
    split
    next heq =>
      -- So far no node has the new one as its parent, because it would come after its child.
      have hnone : ((List.range arena.size).filter fun child =>
          arena.parent? child = some (some id)) = [] := by
        rw [List.filter_eq_nil_iff]
        intro child hchild hother
        have hle := h.parent_le (of_decide_eq_true hother)
        have hlt := List.mem_range.1 hchild
        omega
      rw [hnone, List.nil_append, heq]
      simp only [eq_comm]
    next hne =>
      rw [h.children id (by omega), Option.map_some]
      split <;> simp

/-- **Every node is the child of one parent, once.** -/
theorem count_children {child other : Nat} (hparent : arena.parent? child = some (some parent))
    {children : Array NodeId} (hchildren : arena.children? other = some children) :
    children.toList.count child = if other = parent then 1 else 0 := by
  have hall : (arena.children? other).map Array.toList = some children.toList := by
    rw [hchildren]
    rfl
  rw [h.children other (lt_size_of_children? hall)] at hall
  rw [← Option.some.inj hall]
  split
  next heq =>
    have hmem : child ∈ (List.range arena.size).filter fun child =>
        arena.parent? child = some (some other) :=
      List.mem_filter.2 ⟨List.mem_range.2 (lt_size_of_parent? hparent),
        decide_eq_true (heq ▸ hparent)⟩
    exact List.count_eq_one_of_mem (List.nodup_range.filter _) hmem
  next hne =>
    refine List.count_eq_zero_of_not_mem fun hmem => hne ?_
    have hother := of_decide_eq_true (List.mem_filter.1 hmem).2
    rw [hparent] at hother
    cases hother
    rfl

end Consistent

/-! ## What the root reaches -/

/-- A node has the numbers directly below it as its children. -/
def Mirrors (arena : Arena K) (id : NodeId) (below : Forest NodeId) : Prop :=
  (arena.children? id).map Array.toList = some below.roots

/-- The root and what is below it, as a tree of numbers without repetition. A node is in it if its
parent is, unless the node is its own parent. -/
structure Rooted (arena : Arena K) (tree : Forest NodeId) : Prop where
  roots : tree.roots = [rootId]
  nodup : tree.preorder.Nodup
  mirrors : tree.Each arena.Mirrors
  mem_iff : ∀ id, id ∈ tree.preorder ↔ id = rootId ∨
    ∃ parent, parent ≠ id ∧ arena.parent? id = some (some parent) ∧ parent ∈ tree.preorder

/-- A forest of numbers is visited in preorder. -/
theorem visit_roots {f : Forest NodeId} (mirrors : f.Each arena.Mirrors) (stack : List NodeId)
    {n : Nat} (hn : f.size ≤ n) :
    arena.visit n (f.roots ++ stack) = f.preorder ++ arena.visit (n - f.size) stack := by
  induction f generalizing stack n with
  | nil => rfl
  | cons id below rest ihb ihr =>
    obtain ⟨hid, hbelow, hrest⟩ := mirrors
    rw [Forest.size] at hn ⊢
    obtain ⟨n, rfl⟩ : ∃ m, n = m + 1 := ⟨n - 1, by omega⟩
    have hchildren : ((arena.children? id).getD #[]).toList = below.roots := by
      obtain ⟨children, hchildren, hroots⟩ := Option.map_eq_some_iff.1 hid
      rw [hchildren]
      exact hroots
    have hleft : n + 1 - (1 + below.size + rest.size) = n - below.size - rest.size := by omega
    rw [Forest.roots, List.cons_append, visit, hchildren, ihb hbelow _ (by omega),
      ihr hrest _ (by omega), hleft, Forest.preorder, List.cons_append, List.append_assoc]

theorem rooted_empty (label : String) : (empty label : Arena K).Rooted (.leaf rootId) where
  roots := rfl
  nodup := List.nodup_singleton rootId
  mirrors := ⟨rfl, trivial, trivial⟩
  mem_iff id := by
    rw [Forest.preorder_leaf, List.mem_singleton]
    refine ⟨.inl, ?_⟩
    rintro (rfl | ⟨parent, hne, hparent, hmem⟩)
    · rfl
    · exact Nat.lt_one_iff.1 (lt_size_of_parent? hparent)

namespace Rooted

variable {tree : Forest NodeId} (h : arena.Rooted tree)
include h

theorem lt_size (hid : id ∈ tree.preorder) : id < arena.size :=
  h.mirrors.of_mem (fun _ _ => lt_size_of_children?) id hid

/-- **A new node is one more leaf** below its parent, if the root reaches the parent. -/
theorem add (consistent : arena.Consistent) (parent : Nat) (node : Node K) :
    (arena.add parent node).Rooted (tree.graft parent arena.size) where
  roots := by rw [Forest.roots_graft, h.roots]
  nodup := Forest.nodup_preorder_graft h.nodup fun hmem => Nat.lt_irrefl _ (h.lt_size hmem)
  mirrors := by
    refine h.mirrors.graft (fun below hbelow => ?_) (fun id below hne hbelow => ?_) fun hmem => ?_
    · have hne : parent ≠ arena.size := Nat.ne_of_lt (lt_size_of_children? hbelow)
      rw [Mirrors, children?_add, if_neg hne, hbelow, Option.map_some, if_pos rfl,
        Forest.roots_append, Forest.roots_graft]
      rfl
    · have hsize : id ≠ arena.size := Nat.ne_of_lt (lt_size_of_children? hbelow)
      rw [Mirrors, children?_add, if_neg hsize, hbelow, Option.map_some, if_neg hne,
        Forest.roots_graft]
    · rw [Mirrors, children?_add, if_pos rfl, if_neg (Nat.ne_of_lt (h.lt_size hmem))]
      rfl
  mem_iff id := by
    have hnew : arena.size ∉ tree.preorder := fun hmem => Nat.lt_irrefl _ (h.lt_size hmem)
    simp only [Forest.mem_preorder_graft, parent?_add]
    by_cases hid : id = arena.size
    · subst hid
      simp only [true_and, if_true, hnew, or_false]
      constructor
      · intro hmem
        exact .inr ⟨parent, fun heq => hnew (heq ▸ hmem), rfl, .inr hmem⟩
      · rintro (hroot | ⟨other, hne, hother, ⟨heq, -⟩ | hmem⟩)
        · exact absurd hroot (Nat.ne_of_gt consistent.size_pos)
        · exact absurd heq hne
        · cases hother
          exact hmem
    · simp only [hid, false_and, if_false, false_or]
      rw [h.mem_iff id]
      refine or_congr_right (exists_congr fun other => and_congr_right fun hne => ?_)
      refine and_congr_right fun hother => ?_
      -- A parent does not come after its child, and so it is not the new node.
      have hold : other ≠ arena.size :=
        Nat.ne_of_lt (Nat.lt_of_le_of_lt (consistent.parent_le hother) (lt_size_of_parent? hother))
      simp only [hold, false_and, false_or]

/-- A node that is its own parent is not reached. -/
theorem notMem_of_parent?_self (hid : id ≠ rootId) (hself : arena.parent? id = some (some id)) :
    id ∉ tree.preorder := by
  intro hmem
  rcases (h.mem_iff id).1 hmem with hroot | ⟨parent, hne, hparent, -⟩
  · exact hid hroot
  · rw [hself] at hparent
    cases hparent
    exact hne rfl

/-! ### Depths -/

/-- A node that the root reaches has a depth. -/
theorem isSome_depthWithin? (consistent : arena.Consistent) (hid : id ∈ tree.preorder) {n : Nat}
    (hn : id < n) : (arena.depthWithin? n id).isSome := by
  induction n generalizing id with
  | zero => exact absurd hn (Nat.not_lt_zero id)
  | succ n ih =>
    rw [depthWithin?]
    rcases (h.mem_iff id).1 hid with rfl | ⟨parent, hne, hparent, hmem⟩
    · rw [consistent.root]
      rfl
    · have hlt := Nat.lt_of_le_of_ne (consistent.parent_le hparent) hne
      obtain ⟨depth, hdepth⟩ := Option.isSome_iff_exists.1 (ih hmem (by omega))
      simp [hparent, hdepth]

/-- A node that the root does not reach has none, however many steps are taken. -/
theorem depthWithin?_eq_none (consistent : arena.Consistent) (hid : id ∉ tree.preorder) (n : Nat) :
    arena.depthWithin? n id = none := by
  induction n generalizing id with
  | zero => rfl
  | succ n ih =>
    rw [depthWithin?]
    by_cases hsize : id < arena.size
    · have hroot : id ≠ rootId := fun hroot => hid ((h.mem_iff id).2 (.inl hroot))
      obtain ⟨parent, -, hparent⟩ := consistent.parent id hsize hroot
      have hmem : parent ∉ tree.preorder := by
        intro hmem
        refine hid ((h.mem_iff id).2 (.inr ⟨parent, ?_, hparent, hmem⟩))
        rintro rfl
        exact hid hmem
      simp [hparent, ih hmem]
    · have hnone : arena.parent? id = none := by
        rw [Option.eq_none_iff_forall_ne_some]
        exact fun above habove => hsize (lt_size_of_parent? habove)
      rw [hnone]
      rfl

/-- **The nodes with a depth are those that the root reaches.** -/
theorem isSome_depth?_iff (consistent : arena.Consistent) :
    (arena.depth? id).isSome ↔ id ∈ tree.preorder := by
  constructor
  · intro hdepth
    by_contra hid
    rw [depth?, h.depthWithin?_eq_none consistent hid] at hdepth
    cases hdepth
  · exact fun hid => h.isSome_depthWithin? consistent hid (h.lt_size hid)

/-! ### The order of the nodes -/

theorem exists_below : ∃ below, tree = .cons rootId below .nil := by
  have hroots := h.roots
  cases tree with
  | nil => cases hroots
  | cons label below rest =>
    cases rest with
    | nil =>
      obtain rfl : label = rootId := (List.cons.inj hroots).1
      exact ⟨below, rfl⟩
    | cons => cases (List.cons.inj hroots).2

omit h in
/-- The children of the root come first in what is below it. -/
theorem toList_topLevel {below : Forest NodeId} (h : arena.Rooted (.cons rootId below .nil)) :
    arena.topLevel.toList = below.roots := by
  obtain ⟨children, hchildren, hroots⟩ := Option.map_eq_some_iff.1 h.mirrors.1
  rw [topLevel, hchildren]
  exact hroots

omit h in
/-- No more nodes are below the root than there are. -/
theorem size_below_le {below : Forest NodeId} (h : arena.Rooted (.cons rootId below .nil)) :
    below.size ≤ arena.size := by
  have hrange : (Forest.cons rootId below .nil).preorder ⊆ List.range arena.size :=
    fun id hid => List.mem_range.2 (h.lt_size hid)
  have hlength := (h.nodup.subperm hrange).length_le
  rw [List.length_range, Forest.preorder, List.length_cons, List.length_append,
    Forest.length_preorder] at hlength
  omega

/-- **The order of a document is the tree below its root, in preorder.** -/
theorem order_eq : tree.preorder = rootId :: arena.order := by
  obtain ⟨below, rfl⟩ := h.exists_below
  have hvisit := visit_roots h.mirrors.2.1 [] h.size_below_le
  rw [List.append_nil] at hvisit
  have hend : arena.visit (arena.size - below.size) [] = [] := by
    cases arena.size - below.size <;> rfl
  rw [order, h.toList_topLevel, hvisit, hend, Forest.preorder]
  rfl

/-- The nodes in order are those with a depth, but for the root, and there is no repetition. -/
theorem nodup_order (consistent : arena.Consistent) :
    arena.order.Nodup ∧ ∀ id, id ∈ arena.order ↔ id ≠ rootId ∧ (arena.depth? id).isSome := by
  have hnodup := h.nodup
  rw [h.order_eq, List.nodup_cons] at hnodup
  refine ⟨hnodup.2, fun id => ?_⟩
  rw [h.isSome_depth?_iff consistent, h.order_eq, List.mem_cons]
  constructor
  · intro hid
    exact ⟨fun hroot => hnodup.1 (hroot ▸ hid), .inr hid⟩
  · rintro ⟨hne, hroot | hid⟩
    · exact absurd hroot hne
    · exact hid

end Rooted

/-! ## Trees -/

/-- A document is a tree: from every node, parents lead to the root; every node but the root is the
child of just one node, once, and of another one than itself; and in order, every node but the root
comes once. -/
structure IsTree (arena : Arena K) : Prop where
  deep : ∀ id < arena.size, (arena.depth? id).isSome
  child : ∀ id < arena.size, id ≠ rootId → ∃ parent ≠ id, arena.parent? id = some (some parent) ∧
    ∀ other children, arena.children? other = some children →
      children.toList.count id = if other = parent then 1 else 0
  order : arena.order.Perm (List.range' 1 (arena.size - 1))

/-- **A document is a tree if no node is its own parent.** -/
theorem Consistent.isTree (consistent : arena.Consistent) {tree : Forest NodeId}
    (rooted : arena.Rooted tree) (hne : ∀ id, arena.parent? id ≠ some (some id)) : arena.IsTree := by
  have hmem (id : Nat) (hid : id < arena.size) : id ∈ tree.preorder := by
    induction id using Nat.strongRecOn with
    | _ id ih =>
      rw [rooted.mem_iff]
      by_cases hroot : id = rootId
      · exact .inl hroot
      · obtain ⟨parent, hle, hparent⟩ := consistent.parent id hid hroot
        have hother : parent ≠ id := fun heq => hne id (heq ▸ hparent)
        have hlt := Nat.lt_of_le_of_ne hle hother
        exact .inr ⟨parent, hother, hparent, ih parent hlt (Nat.lt_trans hlt hid)⟩
  obtain ⟨hnodup, horder⟩ := rooted.nodup_order consistent
  have hdeep (id : Nat) (hid : id < arena.size) : (arena.depth? id).isSome :=
    (rooted.isSome_depth?_iff consistent).2 (hmem id hid)
  refine ⟨hdeep, fun id hid hroot => ?_, ?_⟩
  · obtain ⟨parent, -, hparent⟩ := consistent.parent id hid hroot
    exact ⟨parent, fun heq => hne id (heq ▸ hparent), hparent,
      fun other children => consistent.count_children hparent⟩
  · rw [List.perm_ext_iff_of_nodup hnodup List.nodup_range']
    intro id
    have hsize : 1 + (arena.size - 1) = arena.size := Nat.add_sub_cancel' consistent.size_pos
    rw [horder, rooted.isSome_depth?_iff consistent, List.mem_range'_1, Nat.one_le_iff_ne_zero, hsize]
    exact and_congr_right fun _ => ⟨rooted.lt_size, hmem id⟩

end Arena

namespace Document

/-- Adds nodes one after the other, each below the parent that it comes with. -/
def appendAll? (document : Document K) : List (NodeId × Node K) → Option (Document K)
  | [] => some document
  | (parent, node) :: nodes => do
    let (_, document) ← document.append? parent node
    document.appendAll? nodes

theorem exists_of_append? {document next : Document K} {parent id : NodeId} {node : Node K}
    (h : document.append? parent node = some (id, next)) :
    parent ≤ document.size ∧ next.toArena = document.toArena.add parent node := by
  obtain ⟨⟨new, arena⟩, harena, hnext⟩ := Option.map_eq_some_iff.1 h
  obtain ⟨hparent, -, rfl⟩ := Arena.append?_eq_some_iff.1 harena
  cases hnext
  exact ⟨hparent, rfl⟩

/-- What becomes of a document when nodes are added: it stays consistent, the root reaches a tree,
and the parents are the old ones and the ones that the new nodes came with. -/
structure Grows (document : Document K) (nodes : List (NodeId × Node K)) (final : Document K) :
    Prop where
  consistent : final.Consistent
  rooted : ∃ tree, final.Rooted tree
  size : final.size = document.size + nodes.length
  old : ∀ id < document.size, final.parent? id = document.parent? id
  new : ∀ index parent node, nodes[index]? = some (parent, node) →
    final.parent? (document.size + index) = some (some parent)

/-- **Nodes are added one after the other**, whatever their parents are. -/
theorem grows_of_appendAll? {nodes : List (NodeId × Node K)} {document final : Document K}
    (consistent : document.Consistent) (rooted : ∃ tree, document.Rooted tree)
    (h : document.appendAll? nodes = some final) : document.Grows nodes final := by
  induction nodes generalizing document with
  | nil =>
    obtain rfl := Option.some.inj h
    exact ⟨consistent, rooted, rfl, fun _ _ => rfl, fun index parent node h => by simp at h⟩
  | cons call nodes ih =>
    obtain ⟨parent, node⟩ := call
    obtain ⟨⟨id, next⟩, hnext, hfinal⟩ := Option.bind_eq_some_iff.1 h
    obtain ⟨hparent, harena⟩ := exists_of_append? hnext
    obtain ⟨tree, hrooted⟩ := rooted
    have hsize : next.size = document.size + 1 := by rw [harena, Arena.size_add]
    have grows := ih (harena ▸ consistent.add hparent node)
      ⟨_, harena ▸ hrooted.add consistent parent node⟩ hfinal
    have hadd (id : Nat) (hid : id < next.size) : final.parent? id =
        if id = document.size then some (some parent) else document.parent? id := by
      rw [grows.old id hid, harena, Arena.parent?_add]
    refine ⟨grows.consistent, grows.rooted, ?_, fun id hid => ?_, fun index other above hcall => ?_⟩
    · rw [grows.size, hsize, List.length_cons]
      omega
    · rw [hadd id (by omega), if_neg (Nat.ne_of_lt hid)]
    · cases index with
      | zero =>
        obtain ⟨rfl, rfl⟩ := Prod.mk.inj (Option.some.inj hcall)
        rw [Nat.add_zero, hadd _ (by omega), if_pos rfl]
      | succ index =>
        have hnew := grows.new index other above hcall
        rwa [hsize, Nat.add_right_comm] at hnew

/-- **A document that is put together from nodes is a tree if and only if no node names itself as its
parent.** That is possible: the number that a node is about to get counts as a parent.

In any case a node is once the child of the parent that it names, and of no other. The nodes in order
are those with a depth, without repetition. A node that names itself has none, however many steps
are taken. -/
theorem isTree_appendAll? {label : String} {nodes : List (NodeId × Node K)} {document : Document K}
    (h : (Document.empty label).appendAll? nodes = some document) :
    (document.IsTree ↔
      ∀ index parent node, nodes[index]? = some (parent, node) → parent ≠ index + 1) ∧
    (∀ index parent node, nodes[index]? = some (parent, node) →
      document.parent? (index + 1) = some (some parent) ∧
      ∀ other children, document.children? other = some children →
        children.toList.count (index + 1) = if other = parent then 1 else 0) ∧
    (document.order.Nodup ∧
      ∀ id, id ∈ document.order ↔ id ≠ rootId ∧ (document.depth? id).isSome) ∧
    ∀ index node, nodes[index]? = some (index + 1, node) →
      ∀ n, document.depthWithin? n (index + 1) = none := by
  obtain ⟨consistent, ⟨tree, rooted⟩, hsize, -, hnew⟩ :=
    grows_of_appendAll? (Arena.consistent_empty label) ⟨_, Arena.rooted_empty label⟩ h
  have hone : (Document.empty label : Document K).size = 1 := rfl
  have hparent (index parent : Nat) (node : Node K) (hcall : nodes[index]? = some (parent, node)) :
      document.parent? (index + 1) = some (some parent) := by
    rw [Nat.add_comm, ← hone]
    exact hnew index parent node hcall
  refine ⟨⟨fun tree index parent node hcall heq => ?_, fun hother => ?_⟩, ?_, ?_, ?_⟩
  · subst heq
    have hself := hparent index _ node hcall
    obtain ⟨parent, hne, hparent, -⟩ :=
      tree.child (index + 1) (Arena.lt_size_of_parent? hself) (Nat.succ_ne_zero index)
    rw [hself] at hparent
    cases hparent
    exact hne rfl
  · refine consistent.isTree rooted fun id hself => ?_
    cases id with
    | zero => cases consistent.root.symm.trans hself
    | succ index =>
      have hlt := Arena.lt_size_of_parent? hself
      have hcall := List.getElem?_eq_getElem (show index < nodes.length by omega)
      have hsame := hparent index nodes[index].1 nodes[index].2 hcall
      rw [hself] at hsame
      exact hother index _ _ hcall (Option.some.inj (Option.some.inj hsame)).symm
  · exact fun index parent node hcall => ⟨hparent index parent node hcall,
      fun other children => consistent.count_children (hparent index parent node hcall)⟩
  · exact rooted.nodup_order consistent
  · intro index node hcall
    have hself := hparent index (index + 1) node hcall
    exact rooted.depthWithin?_eq_none consistent
      (rooted.notMem_of_parent?_self (Nat.succ_ne_zero index) hself)

/-- The second of three nodes names itself and the third one the second: only the first one comes in
order, and the other two have no depth. -/
theorem isTree_appendAll?_self :
    let node : Node Unit := { role := .eos, raw := "", span := .point .start "" }
    ∃ document : Document Unit,
      (Document.empty "").appendAll? [(0, node), (2, node), (2, node)] = some document ∧
        ¬ document.IsTree ∧ document.order = [1] ∧ document.depth? 3 = none ∧
          ∀ n, document.depthWithin? n 2 = none := by
  intro node
  have h : (Document.empty "").appendAll? [(0, node), (2, node), (2, node)] = some _ := rfl
  obtain ⟨htree, -, -, hself⟩ := isTree_appendAll? h
  refine ⟨_, h, fun tree => htree.1 tree 1 2 node rfl rfl, ?_, ?_, hself 1 node rfl⟩ <;> decide

end Document

end GlobTree
