import GlobTree.Proofs.Tree.Forest
/-!
# Growing a document at its end

A parser adds nodes to the innermost open group, so that the nodes that can still get children are
the open groups, each the last child of the one around it. `Zipper` is a forest with that place in
it, and `Arena.Spine` says that an arena stores it, with its nodes numbered in the order in which
they were made.

Whatever happens at the place leaves everything before the innermost open group as it is
(`Spine.alter`). From this follow the three steps of a parser: a node is added (`Spine.addLeaf`), a
group is opened (`Spine.openGroup`), a group is closed (`Spine.close`). In the end all groups are
closed, and the forest of the zipper is that of the arena (`Spine.forest_eq`).
-/

namespace GlobTree

/-! ## Forests with a place in them -/

/-- A tree that may still grow: its label, and the trees before it. -/
structure Level (α : Type) where
  label : α
  before : Forest α
  deriving DecidableEq, Repr

/-- The trees up to and with a tree that has stopped growing. -/
def Level.close {α : Type} (level : Level α) (inner : Forest α) : Forest α :=
  level.before ++ .cons level.label inner .nil

/-- A forest that grows at its end. -/
structure Zipper (α : Type) where
  /-- The trees around the place, the innermost first. -/
  outer : List (Level α) := []
  /-- The trees in front of the place, below the innermost tree around it. -/
  inner : Forest α := .nil
  deriving DecidableEq, Repr

namespace Zipper

variable {α : Type}

/-- Adds a tree of one node. -/
def add (zipper : Zipper α) (label : α) : Zipper α :=
  { zipper with inner := zipper.inner ++ .leaf label }

/-- Goes below a new node. -/
def descend (zipper : Zipper α) (label : α) : Zipper α :=
  ⟨⟨label, zipper.inner⟩ :: zipper.outer, .nil⟩

/-- Leaves the innermost tree around the place. -/
def ascend (zipper : Zipper α) : Zipper α :=
  match zipper.outer with
  | [] => zipper
  | level :: outer => ⟨outer, level.close zipper.inner⟩

/-- The forest without the place. -/
def forest (zipper : Zipper α) : Forest α :=
  zipper.outer.foldl (fun inner level => level.close inner) zipper.inner

@[simp] theorem forest_ascend (zipper : Zipper α) : zipper.ascend.forest = zipper.forest := by
  obtain ⟨outer, inner⟩ := zipper
  cases outer <;> rfl

/-- Nothing comes after the trees in front of the place. -/
theorem preorder_forest (outer : List (Level α)) (inner : Forest α) :
    (Zipper.mk outer inner).forest.preorder =
      (Zipper.mk outer .nil).forest.preorder ++ inner.preorder := by
  induction outer generalizing inner with
  | nil => rfl
  | cons level outer ih =>
    have h (f : Forest α) : (Zipper.mk (level :: outer) f).forest.preorder =
        (Zipper.mk outer .nil).forest.preorder ++
          (level.before.preorder ++ level.label :: f.preorder) := by
      have hclose : (Zipper.mk (level :: outer) f).forest =
        (Zipper.mk outer (level.close f)).forest := rfl
      rw [hclose, ih, Level.close, Forest.preorder_append, Forest.preorder, Forest.preorder,
        List.append_nil]
    rw [h, h]
    simp [Forest.preorder]

theorem preorder_add (zipper : Zipper α) (label : α) :
    (zipper.add label).forest.preorder = zipper.forest.preorder ++ [label] := by
  rw [add, preorder_forest, Forest.preorder_append, Forest.preorder_leaf, ← List.append_assoc,
    ← preorder_forest]

theorem preorder_descend (zipper : Zipper α) (label : α) :
    (zipper.descend label).forest.preorder = zipper.forest.preorder ++ [label] :=
  preorder_add zipper label

/-! ### Links -/

/-- The label above what comes next, of which there is none at the top. -/
def above? (outer : List (Level α)) : Option α := outer.head?.map (·.label)

/-- Every label around the place, or in front of a tree around it, stands in a relation to the one
above it. -/
def LinkedAround (R : Option α → α → Prop) : List (Level α) → Prop
  | [] => True
  | level :: outer =>
    R (above? outer) level.label ∧ level.before.Linked R (above? outer) ∧ LinkedAround R outer

/-- Every label stands in a relation to the one above it. -/
def Linked (R : Option α → α → Prop) (zipper : Zipper α) : Prop :=
  zipper.inner.Linked R (above? zipper.outer) ∧ LinkedAround R zipper.outer

variable {R : Option α → α → Prop} {zipper : Zipper α}

theorem Linked.add (h : zipper.Linked R) {label : α} (hlabel : R (above? zipper.outer) label) :
    (zipper.add label).Linked R :=
  ⟨Forest.linked_append.2 ⟨h.1, hlabel, trivial, trivial⟩, h.2⟩

theorem Linked.descend (h : zipper.Linked R) {label : α}
    (hlabel : R (above? zipper.outer) label) : (zipper.descend label).Linked R :=
  ⟨trivial, hlabel, h.1, h.2⟩

theorem Linked.ascend (h : zipper.Linked R) : zipper.ascend.Linked R := by
  obtain ⟨outer, inner⟩ := zipper
  cases outer with
  | nil => exact h
  | cons level outer =>
    obtain ⟨hinner, hlabel, hbefore, houter⟩ := h
    exact ⟨Forest.linked_append.2 ⟨hbefore, hlabel, hinner, trivial⟩, houter⟩

theorem Linked.forest (h : zipper.Linked R) : zipper.forest.Linked R none := by
  obtain ⟨outer, inner⟩ := zipper
  induction outer generalizing inner with
  | nil => exact h.1
  | cons level outer ih => exact ih _ h.ascend

end Zipper

/-! ## Adding nodes to an arena -/

variable {K : Type}

namespace Arena

/-- The arena with one more node, the last child of a parent that it has already. -/
def add (arena : Arena K) (parent : NodeId) (node : Node K) : Arena K :=
  let nodes := arena.nodes.push { node with parent := some parent, children := #[] }
  ⟨nodes.modify parent fun above => { above with children := above.children.push arena.size }⟩

theorem append?_eq_add {arena : Arena K} {parent : Nat} (h : parent < arena.size)
    (node : Node K) : arena.append? parent node = some (arena.size, arena.add parent node) := by
  rw [append?, if_pos (Nat.le_of_lt h)]
  rfl

@[simp] theorem size_add (arena : Arena K) (parent : NodeId) (node : Node K) :
    (arena.add parent node).size = arena.size + 1 := by
  simp [add, size]

theorem lt_size_of_node? {arena : Arena K} {id : Nat} {node : Node K}
    (h : arena.node? id = some node) : id < arena.size :=
  (Array.getElem?_eq_some_iff.1 h).1

/-- The new node. -/
theorem node?_add_size {arena : Arena K} {parent : Nat} (h : parent < arena.size) (node : Node K) :
    (arena.add parent node).node? arena.size =
      some { node with parent := some parent, children := #[] } := by
  have hne : parent ≠ arena.nodes.size := Nat.ne_of_lt h
  simp only [add, node?, size, Array.getElem?_modify, if_neg hne, Array.getElem?_push_size]

/-- The parent of the new node. -/
theorem node?_add_parent {arena : Arena K} {parent : Nat} {above : Node K}
    (h : arena.node? parent = some above) (node : Node K) :
    (arena.add parent node).node? parent =
      some { above with children := above.children.push arena.size } := by
  have hlt : parent < arena.nodes.size := lt_size_of_node? h
  have hget : arena.nodes[parent]? = some above := h
  simp [add, node?, size, Array.getElem?_modify, Array.getElem?_push, Nat.ne_of_lt hlt, hget]

/-- The other nodes. -/
theorem node?_add_of_ne {arena : Arena K} {parent id : Nat} (hsize : id ≠ arena.size)
    (hparent : id ≠ parent) (node : Node K) :
    (arena.add parent node).node? id = arena.node? id := by
  have hne : id ≠ arena.nodes.size := hsize
  simp [add, node?, size, Array.getElem?_modify, Array.getElem?_push, hne, Ne.symm hparent]

/-! ## The spine -/

/-- A node is stored at a number, with its children: the given forest right after it, and then
nodes further on. -/
def Holds (arena : Arena K) (id : Nat) (parent : Option NodeId) (label : Entry K)
    (inner : Forest (Entry K)) (tail : List NodeId) : Prop :=
  (∃ node, arena.node? id = some node ∧ node.entry = label ∧ node.parent = parent ∧
    node.children.toList = inner.ids (id + 1) ++ tail) ∧
  inner.LaidAt arena id (id + 1)

/-- The innermost open group, or the root. -/
def top (stack : List (K × NodeId)) : Nat := (stack.head?.map (·.2)).getD rootId

/-- An arena stores a zipper whose outer trees are the root and the open groups, up to the number
`next`. The innermost of them may have more children, which are listed in `tail`. -/
inductive Spine (arena : Arena K) :
    List (Level (Entry K)) → List (K × NodeId) → Forest (Entry K) → List NodeId → Nat → Prop
  | root {label inner tail} (role : label.role = .root)
      (holds : arena.Holds rootId none label inner tail) :
      Spine arena [] [] inner tail (rootId + 1 + inner.size)
  | group {level outer kind id stack inner tail} (role : level.label.role = .group kind)
      (holds : arena.Holds id (some (top stack)) level.label inner tail)
      (below : Spine arena outer stack level.before [id] id) :
      Spine arena (level :: outer) ((kind, id) :: stack) inner tail (id + 1 + inner.size)

namespace Spine

variable {arena arena' : Arena K} {outer : List (Level (Entry K))} {stack : List (K × NodeId)}
  {inner inner' : Forest (Entry K)} {tail tail' : List NodeId} {next : Nat}

/-- The innermost node, with the trees below it that fill the numbers after it. -/
theorem holds_top (h : arena.Spine outer stack inner tail next) :
    (∃ parent label, arena.Holds (top stack) parent label inner tail) ∧
      next = top stack + 1 + inner.size := by
  cases h with
  | root _ holds => exact ⟨⟨_, _, holds⟩, rfl⟩
  | group _ holds _ => exact ⟨⟨_, _, holds⟩, rfl⟩

/-- The innermost open group. -/
theorem exists_level {kind : K} {id : NodeId}
    (h : arena.Spine outer ((kind, id) :: stack) inner tail next) :
    ∃ level lower, outer = level :: lower ∧ level.label.role = .group kind ∧
      arena.Holds id (some (top stack)) level.label inner tail := by
  cases h with
  | group role holds _ => exact ⟨_, _, rfl, role, holds⟩

theorem top_lt_size (h : arena.Spine outer stack inner tail next) : top stack < arena.size := by
  obtain ⟨⟨_, _, ⟨node, hnode, -⟩, -⟩, -⟩ := h.holds_top
  exact lt_size_of_node? hnode

/-- A spine depends only on the nodes with its own numbers. -/
theorem congr (h : arena.Spine outer stack inner tail next)
    (same : ∀ j < next, arena'.node? j = arena.node? j) :
    arena'.Spine outer stack inner tail next := by
  induction h with
  | root role holds =>
    obtain ⟨⟨node, hnode, hrest⟩, hinner⟩ := holds
    refine .root role ⟨⟨node, ?_, hrest⟩, hinner.congr fun j _ hj => same j hj⟩
    rw [same _ (by omega), hnode]
  | group role holds _ ih =>
    obtain ⟨⟨node, hnode, hrest⟩, hinner⟩ := holds
    refine .group role ⟨⟨node, ?_, hrest⟩, hinner.congr fun j _ hj => same j hj⟩ ?_
    · rw [same _ (by omega), hnode]
    · exact ih fun j hj => same j (by omega)

/-- **What happens at the place leaves the nodes before the innermost open group as they are.** -/
theorem alter (h : arena.Spine outer stack inner tail next)
    (same : ∀ j < top stack, arena'.node? j = arena.node? j)
    (holds : ∀ parent label, arena.Holds (top stack) parent label inner tail →
      arena'.Holds (top stack) parent label inner' tail') :
    arena'.Spine outer stack inner' tail' (top stack + 1 + inner'.size) := by
  cases h with
  | root role old => exact .root role (holds _ _ old)
  | group role old below => exact .group role (holds _ _ old) (below.congr same)

/-- A new child of the innermost node, on which nothing is said yet of what is below it. -/
theorem addTail (h : arena.Spine outer stack inner [] arena.size) (node : Node K) :
    (arena.add (top stack) node).Spine outer stack inner [arena.size] arena.size := by
  have hnext := h.holds_top.2
  have hlt := h.top_lt_size
  have hspine : (arena.add (top stack) node).Spine outer stack inner [arena.size]
      (top stack + 1 + inner.size) := by
    refine h.alter (fun j hj => node?_add_of_ne (by omega) (by omega) node) ?_
    rintro parent label ⟨⟨above, habove, hentry, hparent, hchildren⟩, hinner⟩
    refine ⟨⟨_, node?_add_parent habove node, hentry, hparent, ?_⟩, hinner.congr ?_⟩
    · simp [hchildren]
    · intro j h₁ h₂
      exact node?_add_of_ne (by omega) (by omega) node
  rwa [← hnext] at hspine

/-- A tree that stands where the tail of the spine begins belongs to the trees in front. -/
theorem absorb (h : arena.Spine outer stack inner [next] next) {tree : Forest (Entry K)}
    (ids : tree.ids next = [next]) (laid : tree.LaidAt arena (top stack) next) :
    arena.Spine outer stack (inner ++ tree) [] (next + tree.size) := by
  have hnext := h.holds_top.2
  have hspine : arena.Spine outer stack (inner ++ tree) []
      (top stack + 1 + (inner ++ tree).size) := by
    refine h.alter (fun _ _ => rfl) ?_
    rintro parent label ⟨⟨node, hnode, hentry, hparent, hchildren⟩, hinner⟩
    refine ⟨⟨node, hnode, hentry, hparent, ?_⟩, Forest.laidAt_append.2 ⟨hinner, ?_⟩⟩
    · rw [hchildren, List.append_nil, Forest.ids_append, ← hnext, ids]
    · rwa [← hnext]
  rwa [Forest.size_append, ← Nat.add_assoc, ← hnext] at hspine

/-- **A node without children is added at the place.** -/
theorem addLeaf (h : arena.Spine outer stack inner [] arena.size) (node : Node K) :
    (arena.add (top stack) node).Spine outer stack (inner ++ .leaf node.entry) []
      (arena.size + 1) := by
  refine (h.addTail node).absorb rfl ⟨⟨_, node?_add_size h.top_lt_size node, rfl, rfl, rfl⟩, ?_, ?_⟩
    <;> trivial

/-- **A group is opened at the place, with its first child.** -/
theorem openGroup (h : arena.Spine outer stack inner [] arena.size) {kind : K} {group : Node K}
    (role : group.role = .group kind) (first : Node K) :
    ((arena.add (top stack) group).add arena.size first).Spine (⟨group.entry, inner⟩ :: outer)
      ((kind, arena.size) :: stack) (.leaf first.entry) [] (arena.size + 1 + 1) := by
  have hsize : (arena.add (top stack) group).size = arena.size + 1 := size_add ..
  have hgroup := node?_add_size h.top_lt_size group
  have hbelow : (arena.add (top stack) group).Spine (⟨group.entry, inner⟩ :: outer)
      ((kind, arena.size) :: stack) .nil [] (arena.add (top stack) group).size := by
    rw [hsize]
    exact .group role ⟨⟨_, hgroup, rfl, rfl, rfl⟩, trivial⟩ (h.addTail group)
  have hspine := hbelow.addLeaf first
  rwa [hsize] at hspine

/-- **The innermost open group is closed.** -/
theorem close {level : Level (Entry K)} {kind : K} {id : NodeId}
    (h : arena.Spine (level :: outer) ((kind, id) :: stack) inner [] next) :
    arena.Spine outer stack (level.close inner) [] next := by
  cases h with
  | group role holds below =>
    obtain ⟨⟨node, hnode, hentry, hparent, hchildren⟩, hinner⟩ := holds
    rw [List.append_nil] at hchildren
    have hlaid : (Forest.cons level.label inner .nil).LaidAt arena (top stack) id :=
      ⟨⟨node, hnode, hentry, hparent, hchildren⟩, hinner, trivial⟩
    have hspine := below.absorb rfl hlaid
    rwa [Forest.size, Forest.size, Nat.add_zero, ← Nat.add_assoc] at hspine

/-- All open groups are closed. -/
theorem closeAll (h : arena.Spine outer stack inner [] next) :
    arena.Spine [] [] (Zipper.mk outer inner).forest [] next := by
  induction outer generalizing stack inner with
  | nil =>
    cases h with
    | root role holds => exact .root role holds
  | cons level outer ih =>
    cases h with
    | group role holds below => exact ih (Spine.group role holds below).close

/-- **The forest of the zipper is the one that the arena stores.** -/
theorem forest_eq (h : arena.Spine outer stack inner [] next) (hsize : next ≤ arena.size) :
    arena.forest = (Zipper.mk outer inner).forest := by
  generalize hf : (Zipper.mk outer inner).forest = f
  have hroot := h.closeAll
  rw [hf] at hroot
  cases hroot with
  | root role holds =>
    obtain ⟨⟨node, hnode, -, -, hchildren⟩, hlaid⟩ := holds
    have htop : arena.topLevel.toList = f.ids (rootId + 1) := by
      rw [topLevel, children?, hnode]
      simpa using hchildren
    rw [forest, htop]
    exact forestWithin_ids hlaid (by omega)

/-- Where all groups are closed, the root holds the whole forest. -/
theorem exists_root {forest : Forest (Entry K)} (h : arena.Spine [] [] forest [] next) :
    ∃ root, arena.node? rootId = some root ∧ root.role = .root ∧
      root.children.toList = forest.ids 1 ∧ forest.LaidAt arena rootId 1 ∧ next = 1 + forest.size := by
  cases h with
  | root role holds =>
    obtain ⟨⟨root, hroot, hentry, -, hchildren⟩, hlaid⟩ := holds
    have hrole : root.role = .root := (congrArg Entry.role hentry).trans role
    have hids : root.children.toList = forest.ids 1 := by
      rw [hchildren, List.append_nil]
      rfl
    exact ⟨root, hroot, hrole, hids, hlaid, Nat.add_assoc .. ▸ rfl⟩

/-- A fresh arena. -/
theorem empty (label : String) : (Arena.empty (K := K) label).Spine [] [] .nil [] 1 := by
  have hroot : (Arena.empty (K := K) label).Holds rootId none
      ⟨.root, "", none, none, .point .start label⟩ .nil [] :=
    ⟨⟨_, rfl, rfl, rfl, rfl⟩, trivial⟩
  exact .root rfl hroot

end Spine

end Arena

end GlobTree
