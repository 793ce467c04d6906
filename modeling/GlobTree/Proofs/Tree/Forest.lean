import GlobTree.Tree.Document
/-!
# Documents as forests

Nodes refer to each other by number. `Forest` is the same tree without numbers: a list of labelled
trees, written as a first tree and the trees after it. `Arena.forest` reads the forest below the
root off an arena, with the `Entry` of each node, which is the node without its links.

A parser numbers nodes in the order in which it makes them. `Forest.LaidAt` says that a forest is
stored from a number on in that way: every node directly before the nodes below it. A forest that
is laid out is the one that is read off (`Arena.forestWithin_ids`).
-/

namespace GlobTree

/-- A node without its links to other nodes. -/
structure Entry (K : Type) where
  role : Role K
  raw : String
  lead : Option String := none
  trail : Option String := none
  span : Span
  deriving DecidableEq, Repr

/-- The entry of a node. -/
def Node.entry {K : Type} (node : Node K) : Entry K :=
  ⟨node.role, node.raw, node.lead, node.trail, node.span⟩

/-- A list of trees with labels at their nodes. -/
inductive Forest (α : Type)
  /-- No tree. -/
  | nil
  /-- The first tree, by its label and the forest below it, and the trees after it. -/
  | cons (label : α) (below rest : Forest α)
  deriving DecidableEq, Repr

namespace Forest

variable {α : Type}

/-- The trees of one forest and then those of another. -/
def append : Forest α → Forest α → Forest α
  | nil, g => g
  | cons label below rest, g => cons label below (rest.append g)

instance : Append (Forest α) := ⟨append⟩

/-- A tree of one node. -/
def leaf (label : α) : Forest α := cons label nil nil

/-- The number of nodes. -/
def size : Forest α → Nat
  | nil => 0
  | cons _ below rest => 1 + below.size + rest.size

/-- The labels of all nodes, each before those below it. -/
def preorder : Forest α → List α
  | nil => []
  | cons label below rest => label :: (below.preorder ++ rest.preorder)

/-- The labels of the trees' first nodes. -/
def roots : Forest α → List α
  | nil => []
  | cons label _ rest => label :: rest.roots

/-- The numbers of the trees' first nodes, if the nodes are numbered in preorder. -/
def ids : Forest α → NodeId → List NodeId
  | nil, _ => []
  | cons _ below rest, id => id :: rest.ids (id + 1 + below.size)

@[simp] theorem nil_append (g : Forest α) : nil ++ g = g := rfl

@[simp] theorem cons_append (label : α) (below rest g : Forest α) :
    cons label below rest ++ g = cons label below (rest ++ g) := rfl

@[simp] theorem append_nil (f : Forest α) : f ++ nil = f := by
  induction f with
  | nil => rfl
  | cons label below rest _ ih => rw [cons_append, ih]

theorem append_assoc (f g h : Forest α) : f ++ g ++ h = f ++ (g ++ h) := by
  induction f with
  | nil => rfl
  | cons label below rest _ ih => rw [cons_append, cons_append, cons_append, ih]

@[simp] theorem size_append (f g : Forest α) : (f ++ g).size = f.size + g.size := by
  induction f with
  | nil => simp [size]
  | cons label below rest _ ih =>
    rw [cons_append, size, size, ih]
    omega

@[simp] theorem preorder_append (f g : Forest α) : (f ++ g).preorder = f.preorder ++ g.preorder := by
  induction f with
  | nil => rfl
  | cons label below rest _ ih =>
    rw [cons_append, preorder, preorder, ih, List.cons_append, List.append_assoc]

@[simp] theorem preorder_leaf (label : α) : (leaf label).preorder = [label] := rfl

theorem forall_mem_preorder_cons {p : α → Prop} {label : α} {below rest : Forest α} :
    (∀ other ∈ (cons label below rest).preorder, p other) ↔
      p label ∧ (∀ other ∈ below.preorder, p other) ∧ ∀ other ∈ rest.preorder, p other := by
  rw [preorder, List.forall_mem_cons, List.forall_mem_append]

theorem mem_preorder_of_mem_roots {f : Forest α} {label : α} (h : label ∈ f.roots) :
    label ∈ f.preorder := by
  induction f with
  | nil => exact h
  | cons first below rest _ ih =>
    rw [preorder]
    rcases List.mem_cons.1 h with rfl | h
    · exact List.mem_cons_self
    · exact List.mem_cons_of_mem _ (List.mem_append_right _ (ih h))

theorem ids_append (f g : Forest α) (id : Nat) :
    (f ++ g).ids id = f.ids id ++ g.ids (id + f.size) := by
  induction f generalizing id with
  | nil => rfl
  | cons label below rest _ ih =>
    have h : id + 1 + below.size + rest.size = id + (1 + below.size + rest.size) := by omega
    rw [cons_append, ids, ids, ih, List.cons_append, size, h]

/-- Every label stands in a relation to the one above it. Above the whole forest there is the given
label or none. -/
def Linked (R : Option α → α → Prop) (above : Option α) : Forest α → Prop
  | nil => True
  | cons label below rest =>
    R above label ∧ below.Linked R (some label) ∧ rest.Linked R above

theorem linked_append {R : Option α → α → Prop} {above : Option α} {f g : Forest α} :
    (f ++ g).Linked R above ↔ f.Linked R above ∧ g.Linked R above := by
  induction f with
  | nil => simp [Linked]
  | cons label below rest _ ih => rw [cons_append, Linked, Linked, ih, and_assoc, and_assoc]

theorem Linked.of_mem_roots {R : Option α → α → Prop} {above : Option α} {f : Forest α}
    (h : f.Linked R above) : ∀ label ∈ f.roots, R above label := by
  induction f with
  | nil => exact fun _ h => absurd h List.not_mem_nil
  | cons label below rest _ ih =>
    intro other hother
    rcases List.mem_cons.1 hother with rfl | hother
    · exact h.1
    · exact ih h.2.2 other hother

/-- What every label has whatever is above it, all labels have. -/
theorem Linked.of_mem {R : Option α → α → Prop} {p : α → Prop}
    (hp : ∀ {above label}, R above label → p label) {above : Option α} {f : Forest α}
    (h : f.Linked R above) : ∀ label ∈ f.preorder, p label := by
  induction f generalizing above with
  | nil => exact fun _ h => absurd h List.not_mem_nil
  | cons label below rest ihb ihr =>
    obtain ⟨hlabel, hbelow, hrest⟩ := h
    exact forall_mem_preorder_cons.2 ⟨hp hlabel, ihb hbelow, ihr hrest⟩

end Forest

/-! ## Forests in an arena -/

variable {K : Type}

/-- The trees that start at the given nodes, down to the given depth. -/
def Arena.forestWithin (arena : Arena K) : Nat → List NodeId → Forest (Entry K)
  | 0, _ => .nil
  | n + 1, ids =>
    ids.foldr
      (fun id rest =>
        match arena.node? id with
        | some node => .cons node.entry (arena.forestWithin n node.children.toList) rest
        | none => rest)
      .nil

/-- The forest below the root. No node is deeper than there are nodes. -/
def Arena.forest (arena : Arena K) : Forest (Entry K) :=
  arena.forestWithin arena.size arena.topLevel.toList

/-- A forest is stored below a parent, with its nodes numbered in preorder from a number on. -/
def Forest.LaidAt (arena : Arena K) : Forest (Entry K) → (parent id : NodeId) → Prop
  | nil, _, _ => True
  | cons label below rest, parent, id =>
    (∃ node, arena.node? id = some node ∧ node.entry = label ∧ node.parent = some parent ∧
      node.children.toList = below.ids (id + 1)) ∧
    below.LaidAt arena id (id + 1) ∧ rest.LaidAt arena parent (id + 1 + below.size)

namespace Forest

theorem laidAt_append {arena : Arena K} {f g : Forest (Entry K)} {parent id : Nat} :
    (f ++ g).LaidAt arena parent id ↔
      f.LaidAt arena parent id ∧ g.LaidAt arena parent (id + f.size) := by
  induction f generalizing id with
  | nil => simp [LaidAt, size]
  | cons label below rest _ ih =>
    have h : id + 1 + below.size + rest.size = id + (1 + below.size + rest.size) := by omega
    rw [cons_append, LaidAt, LaidAt, ih, size, h, and_assoc, and_assoc]

/-- A stored forest depends only on the nodes with its own numbers. -/
theorem LaidAt.congr {arena arena' : Arena K} {f : Forest (Entry K)} {parent id : Nat}
    (h : f.LaidAt arena parent id)
    (same : ∀ j, id ≤ j → j < id + f.size → arena'.node? j = arena.node? j) :
    f.LaidAt arena' parent id := by
  induction f generalizing parent id with
  | nil => trivial
  | cons label below rest ihb ihr =>
    rw [size] at same
    obtain ⟨⟨node, hnode, hrest⟩, hb, hr⟩ := h
    refine ⟨⟨node, ?_, hrest⟩, ihb hb fun j h₁ h₂ => ?_, ihr hr fun j h₁ h₂ => ?_⟩
    · rw [same id (Nat.le_refl _) (by omega), hnode]
    · exact same j (by omega) (by omega)
    · exact same j (by omega) (by omega)

/-- The first nodes of the trees are found under their numbers. -/
theorem LaidAt.mapM_node? {arena : Arena K} {f : Forest (Entry K)} {parent id : Nat}
    (h : f.LaidAt arena parent id) :
    ∃ nodes, (f.ids id).mapM arena.node? = some nodes ∧ nodes.map Node.entry = f.roots := by
  induction f generalizing id with
  | nil => exact ⟨[], rfl, rfl⟩
  | cons label below rest _ ih =>
    obtain ⟨⟨node, hnode, hentry, -, -⟩, -, hrest⟩ := h
    obtain ⟨nodes, hnodes, hroots⟩ := ih hrest
    refine ⟨node :: nodes, ?_, ?_⟩
    · rw [ids, List.mapM_cons, hnode, hnodes]
      rfl
    · rw [List.map_cons, hentry, hroots]
      rfl

theorem LaidAt.exists_node {arena : Arena K} {f : Forest (Entry K)} {parent id : Nat}
    (h : f.LaidAt arena parent id) {child : NodeId} (hchild : child ∈ f.ids id) :
    ∃ node, arena.node? child = some node ∧ node.entry ∈ f.roots := by
  induction f generalizing id with
  | nil => exact absurd hchild List.not_mem_nil
  | cons label below rest _ ih =>
    obtain ⟨⟨node, hnode, rfl, -, -⟩, -, hrest⟩ := h
    rcases List.mem_cons.1 hchild with rfl | hchild
    · exact ⟨node, hnode, List.mem_cons_self⟩
    · obtain ⟨other, hother, hroot⟩ := ih hrest hchild
      exact ⟨other, hother, List.mem_cons_of_mem _ hroot⟩

/-- The last tree is found under the last number. -/
theorem LaidAt.getLast? {arena : Arena K} {label : Entry K} {below rest : Forest (Entry K)}
    {parent id : Nat} (h : (cons label below rest).LaidAt arena parent id) :
    ∃ last node, ((cons label below rest).ids id).getLast? = some last ∧
      arena.node? last = some node ∧ (cons label below rest).roots.getLast? = some node.entry := by
  induction rest generalizing label below id with
  | nil =>
    obtain ⟨⟨node, hnode, rfl, -, -⟩, -, -⟩ := h
    exact ⟨id, node, rfl, hnode, rfl⟩
  | cons other below' rest _ ih =>
    obtain ⟨last, node, hlast, hnode, hroot⟩ := ih h.2.2
    refine ⟨last, node, ?_, hnode, ?_⟩
    · rw [ids, ids, List.getLast?_cons_cons]
      exact hlast
    · rw [roots, roots, List.getLast?_cons_cons]
      exact hroot

end Forest

/-- A group is closed if its last child closes it. -/
theorem Arena.isClosed?_of_laid [DecidableEq K] {arena : Arena K} {node : Node K}
    {below : Forest (Entry K)} {id : Nat} {kind : K} (hnode : arena.node? id = some node)
    (hkind : node.role = .group kind) (hchildren : node.children.toList = below.ids (id + 1))
    (laid : below.LaidAt arena id (id + 1)) :
    arena.isClosed? id =
      some (decide (below.roots.getLast?.map (·.role) = some (.closing kind))) := by
  have hback : arena.lastChild? id = some (below.ids (id + 1)).getLast? := by
    rw [lastChild?, children?, hnode, ← hchildren, Array.getLast?_toList]
    rfl
  rw [isClosed?, hnode, hback]
  cases below with
  | nil => simp [Forest.ids, Forest.roots]
  | cons label below rest =>
    obtain ⟨last, other, hlast, hother, hroot⟩ := laid.getLast?
    rw [hlast, hroot]
    simp [hkind, hother, Node.entry]

/-- **A stored forest is the one that is read off the arena.** -/
theorem Arena.forestWithin_ids {arena : Arena K} {f : Forest (Entry K)} {parent id : Nat}
    (h : f.LaidAt arena parent id) {n : Nat} (hn : f.size ≤ n) :
    arena.forestWithin n (f.ids id) = f := by
  induction f generalizing parent id n with
  | nil => cases n <;> rfl
  | cons label below rest ihb ihr =>
    obtain ⟨⟨node, hnode, rfl, -, hchildren⟩, hb, hr⟩ := h
    rw [Forest.size] at hn
    obtain ⟨n, rfl⟩ : ∃ m, n = m + 1 := ⟨n - 1, by omega⟩
    have hbelow := ihb hb (n := n) (by omega)
    have hrest := ihr hr (n := n + 1) (by omega)
    rw [forestWithin] at hrest ⊢
    rw [Forest.ids, List.foldr_cons, hrest, hnode]
    show Forest.cons _ _ _ = _
    rw [hchildren, hbelow]

end GlobTree
