import GlobTree.Proofs.Tree.Spine
/-!
# The order of a document

`Arena.order` visits all nodes below the root. Where a forest is stored with its nodes numbered in
preorder, it visits the numbers one after the other (`Arena.Spine.order_eq`), and the nodes found
there have the labels of the forest in preorder (`Forest.LaidAt.map_entry`). What holds of every
label together with the forest below it (`Forest.Each`) holds of every stored node with what is
stored below it (`Forest.LaidAt.exists_below`).

A group without a closing token is not closed. `Arena.unclosed` lists these groups in the order of
the document, and `Forest.unclosed` their labels.
-/

namespace GlobTree

/-! ## Labels with what is below them -/

namespace Forest

variable {α : Type} {P Q : α → Forest α → Prop}

/-- Something holds of every label together with the forest below it. -/
def Each (P : α → Forest α → Prop) : Forest α → Prop
  | nil => True
  | cons label below rest => P label below ∧ below.Each P ∧ rest.Each P

theorem each_append {f g : Forest α} : (f ++ g).Each P ↔ f.Each P ∧ g.Each P := by
  induction f with
  | nil => simp [Each]
  | cons label below rest _ ih => rw [cons_append, Each, Each, ih, and_assoc, and_assoc]

theorem Each.mono {f : Forest α} (h : f.Each P) (himp : ∀ label below, P label below → Q label below) :
    f.Each Q := by
  induction f with
  | nil => trivial
  | cons label below rest ihb ihr => exact ⟨himp label below h.1, ihb h.2.1, ihr h.2.2⟩

theorem each_of_forall (h : ∀ label below, P label below) (f : Forest α) : f.Each P := by
  induction f with
  | nil => trivial
  | cons label below rest ihb ihr => exact ⟨h label below, ihb, ihr⟩

@[simp] theorem roots_append (f g : Forest α) : (f ++ g).roots = f.roots ++ g.roots := by
  induction f with
  | nil => rfl
  | cons label below rest _ ih => rw [cons_append, roots, roots, ih, List.cons_append]

/-- The numbers of a tree and of the trees after it. -/
theorem range'_size_cons (label : α) (below rest : Forest α) (id : Nat) :
    List.range' id (cons label below rest).size =
      id :: (List.range' (id + 1) below.size ++ List.range' (id + 1 + below.size) rest.size) := by
  rw [size, Nat.add_assoc, Nat.add_comm 1, List.range'_succ, List.range'_append_1]

end Forest

variable {K : Type}

/-! ## Visiting a stored forest -/

section Stored

variable {arena : Arena K} {f : Forest (Entry K)} {parent id : Nat}

/-- **A stored forest is visited in the order of its numbers.** -/
theorem Arena.visit_ids (laid : f.LaidAt arena parent id) (stack : List NodeId) {n : Nat}
    (hn : f.size ≤ n) :
    arena.visit n (f.ids id ++ stack) = List.range' id f.size ++ arena.visit (n - f.size) stack := by
  induction f generalizing parent id stack n with
  | nil => rfl
  | cons label below rest ihb ihr =>
    obtain ⟨⟨node, hnode, -, -, hchildren⟩, hbelow, hrest⟩ := laid
    rw [Forest.range'_size_cons]
    rw [Forest.size] at hn ⊢
    obtain ⟨n, rfl⟩ : ∃ m, n = m + 1 := ⟨n - 1, by omega⟩
    have hids : ((arena.children? id).getD #[]).toList = below.ids (id + 1) := by
      rw [children?, hnode]
      exact hchildren
    have hleft : n + 1 - (1 + below.size + rest.size) = n - below.size - rest.size := by omega
    rw [Forest.ids, List.cons_append, visit, hids, ihb hbelow _ (by omega),
      ihr hrest _ (by omega), hleft, List.cons_append, List.append_assoc]

/-- **The nodes of a stored forest have its labels, in preorder.** -/
theorem Forest.LaidAt.map_entry (laid : f.LaidAt arena parent id) :
    ((List.range' id f.size).filterMap arena.node?).map Node.entry = f.preorder := by
  induction f generalizing parent id with
  | nil => rfl
  | cons label below rest ihb ihr =>
    obtain ⟨⟨node, hnode, rfl, -, -⟩, hbelow, hrest⟩ := laid
    rw [range'_size_cons, List.filterMap_cons_some hnode, List.filterMap_append, List.map_cons,
      List.map_append, ihb hbelow, ihr hrest, preorder]

/-- **Every stored node has its part of the forest below it.** -/
theorem Forest.LaidAt.exists_below {P : Entry K → Forest (Entry K) → Prop}
    (laid : f.LaidAt arena parent id) (each : f.Each P) {j : Nat}
    (hj : j ∈ List.range' id f.size) :
    ∃ node below, arena.node? j = some node ∧ node.children.toList = below.ids (j + 1) ∧
      below.LaidAt arena j (j + 1) ∧ P node.entry below := by
  induction f generalizing parent id with
  | nil => exact absurd hj List.not_mem_nil
  | cons label below rest ihb ihr =>
    obtain ⟨⟨node, hnode, rfl, -, hchildren⟩, hbelow, hrest⟩ := laid
    rw [range'_size_cons, List.mem_cons, List.mem_append] at hj
    rcases hj with rfl | hj | hj
    · exact ⟨node, below, hnode, hchildren, hbelow, each.1⟩
    · exact ihb hbelow each.2.1 hj
    · exact ihr hrest each.2.2 hj

/-- **The order of a document is that of the numbers of its nodes.** -/
theorem Arena.Spine.order_eq (h : arena.Spine [] [] f [] arena.size) :
    arena.order = List.range' 1 f.size := by
  obtain ⟨root, hroot, -, hchildren, hlaid, hsize⟩ := h.exists_root
  have htop : arena.topLevel.toList = f.ids 1 := by
    rw [topLevel, children?, hroot]
    exact hchildren
  have hvisit := visit_ids hlaid [] (n := arena.size) (by omega)
  rw [List.append_nil] at hvisit
  rw [order, htop, hvisit, hsize, Nat.add_sub_cancel]
  exact List.append_nil _

/-- All nodes but the root are in order. -/
theorem Arena.Spine.mem_order (h : arena.Spine [] [] f [] arena.size) {j : NodeId} {node : Node K}
    (hnode : arena.node? j = some node) (hj : j ≠ rootId) : j ∈ arena.order := by
  obtain ⟨_, -, -, -, -, hsize⟩ := h.exists_root
  have hlt : j < arena.size := lt_size_of_node? hnode
  rw [h.order_eq, List.mem_range'_1]
  exact ⟨Nat.one_le_iff_ne_zero.2 hj, hsize ▸ hlt⟩

end Stored

/-! ## Groups that are not closed -/

variable [DecidableEq K]

/-- A label is that of a group, and the last label directly below it is not that of its closing
token. -/
def Entry.isUnclosed (label : Entry K) (below : Forest (Entry K)) : Bool :=
  match label.role with
  | .group kind => below.roots.getLast?.map (·.role) != some (.closing kind)
  | _ => false

/-- The labels of the groups that are not closed, in preorder. -/
def Forest.unclosed : Forest (Entry K) → List (Entry K)
  | nil => []
  | cons label below rest =>
    if label.isUnclosed below then label :: (below.unclosed ++ rest.unclosed)
    else below.unclosed ++ rest.unclosed

/-- Whether a node is a group that is not closed. -/
def Arena.isUnclosed (arena : Arena K) (id : NodeId) : Bool :=
  (arena.node? id).any (·.role matches .group _) && arena.isClosed? id == some false

/-- The groups that are not closed, in the order of the document. -/
def Arena.unclosed (arena : Arena K) : List NodeId := arena.order.filter arena.isUnclosed

@[simp] theorem Forest.unclosed_append (f g : Forest (Entry K)) :
    (f ++ g).unclosed = f.unclosed ++ g.unclosed := by
  induction f with
  | nil => rfl
  | cons label below rest _ ih =>
    rw [cons_append, unclosed, unclosed, ih]
    split <;> simp [List.append_assoc]

section Stored

variable {arena : Arena K} {f : Forest (Entry K)} {parent id : Nat}

theorem Arena.isUnclosed_eq {node : Node K} {below : Forest (Entry K)}
    (hnode : arena.node? id = some node) (hchildren : node.children.toList = below.ids (id + 1))
    (laid : below.LaidAt arena id (id + 1)) :
    arena.isUnclosed id = node.entry.isUnclosed below := by
  rw [isUnclosed, hnode, Option.any_some, Entry.isUnclosed]
  have hrole : node.entry.role = node.role := rfl
  cases hgroup : node.role with
  | group kind =>
    rw [isClosed?_of_laid hnode hgroup hchildren laid, hrole, hgroup]
    by_cases hlast : below.roots.getLast?.map (·.role) = some (.closing kind) <;> simp [hlast]
  | root | eos | token | opening | closing => rw [hrole, hgroup]; rfl

/-- **The groups of a stored forest that are not closed have the labels that the forest says.** -/
theorem Forest.LaidAt.map_unclosed (laid : f.LaidAt arena parent id) :
    ((List.range' id f.size).filter arena.isUnclosed).map
      (fun id => (arena.node? id).map Node.entry) = f.unclosed.map some := by
  induction f generalizing parent id with
  | nil => rfl
  | cons label below rest ihb ihr =>
    obtain ⟨⟨node, hnode, rfl, -, hchildren⟩, hbelow, hrest⟩ := laid
    rw [range'_size_cons, unclosed, List.filter_cons,
      Arena.isUnclosed_eq hnode hchildren hbelow, List.filter_append]
    split
    · rw [List.map_cons, List.map_append, ihb hbelow, ihr hrest, hnode, List.map_cons,
        List.map_append]
      rfl
    · rw [List.map_append, ihb hbelow, ihr hrest, List.map_append]

end Stored

end GlobTree
