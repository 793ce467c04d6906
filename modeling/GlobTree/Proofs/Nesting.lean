import GlobTree.Nesting
/-!
# The two views of the open groups

`Nesting` keeps the open groups on one stack and sorted by kind as well. `Nesting.InStep` says that
the sorted view shows the same as the stack. It holds at the start, and opening and closing groups
keep it.

So the two views are as good as one list of groups with their kinds (`Listing`). Whatever calls both
get (`Call`), they give the same answers, and every question has the answer that the list gives
(`oneList_of_calls`). The step is `Lists.call`: the stack is the list from its end on, and the
sorted view is in step with it.
-/

namespace GlobTree.Nesting

variable {K : Type} [DecidableEq K]

/-- The open groups of a kind, as the stack shows them. -/
def onStack (stack : List (K × NodeId)) (kind : K) : List NodeId :=
  (stack.filter (·.1 = kind)).map (·.2)

theorem onStack_reverse (stack : List (K × NodeId)) (kind : K) :
    onStack stack.reverse kind = (onStack stack kind).reverse := by
  rw [onStack, List.filter_reverse, List.map_reverse, onStack]

/-- For every kind, the sorted view is the part of the stack with that kind. -/
def InStep (nesting : Nesting K) : Prop :=
  ∀ kind, nesting.ofKind kind = onStack nesting.stack kind

/-- The stack of a kind after a change. -/
theorem lookup_alterKind (kind other : K) (change : List NodeId → List NodeId)
    (byKind : List (K × List NodeId)) :
    ((alterKind kind change byKind).lookup other).getD [] =
      if other = kind then change ((byKind.lookup other).getD [])
      else (byKind.lookup other).getD [] := by
  induction byKind with
  | nil =>
    by_cases h : other = kind
    · simp [alterKind, h]
    · have hne : (other == kind) = false := by simpa using h
      simp [alterKind, List.lookup_cons, h, hne]
  | cons entry rest ih =>
    obtain ⟨first, ids⟩ := entry
    rw [alterKind]
    by_cases hfirst : first = kind
    · subst hfirst
      rw [if_pos rfl]
      by_cases h : other = first
      · simp [h]
      · have hne : (other == first) = false := by simpa using h
        simp [List.lookup_cons, h, hne]
    · rw [if_neg hfirst]
      by_cases h : other = first
      · subst h
        simp [hfirst]
      · have hne : (other == first) = false := by simpa using h
        simpa [List.lookup_cons, hne] using ih

theorem inStep_empty : InStep ({} : Nesting K) := fun _ => rfl

theorem InStep.push {nesting : Nesting K} (h : nesting.InStep) (kind : K) (id : NodeId) :
    (nesting.push kind id).InStep := by
  intro other
  have hlookup := lookup_alterKind kind other (id :: ·) nesting.byKind
  have hother := h other
  rw [ofKind] at hother
  rw [ofKind, Nesting.push, hlookup, hother]
  by_cases hkind : other = kind
  · simp [hkind, onStack]
  · simp [hkind, Ne.symm hkind, onStack]

/-- The innermost group can be closed if its kind is right, and nothing else happens. -/
theorem pop_cons {nesting : Nesting K} {kind : K} {id : NodeId} {stack : List (K × NodeId)}
    (hstack : nesting.stack = (kind, id) :: stack) :
    nesting.pop kind = .ok (id, ⟨stack, alterKind kind List.tail nesting.byKind⟩) := by
  rw [pop, hstack]
  exact if_pos rfl

theorem pop_nil {nesting : Nesting K} (hstack : nesting.stack = []) (kind : K) :
    nesting.pop kind = .error .nothingOpen := by
  rw [pop, hstack]

theorem pop_of_ne {nesting : Nesting K} {kind other : K} {id : NodeId} {stack : List (K × NodeId)}
    (hstack : nesting.stack = (other, id) :: stack) (h : other ≠ kind) :
    nesting.pop kind = .error (.interleaved other) := by
  rw [pop, hstack]
  exact if_neg h

/-- Only the innermost group can be closed. -/
theorem exists_of_pop {nesting next : Nesting K} {kind : K} {id : NodeId}
    (h : nesting.pop kind = .ok (id, next)) : ∃ stack, nesting.stack = (kind, id) :: stack := by
  rw [pop] at h
  split at h
  · cases h
  next other group stack hstack =>
    split at h
    next heq =>
      cases h
      exact ⟨stack, heq ▸ hstack⟩
    · cases h

theorem InStep.pop {nesting : Nesting K} (h : nesting.InStep) {kind : K} {id : NodeId}
    {stack : List (K × NodeId)} (hstack : nesting.stack = (kind, id) :: stack) :
    InStep ⟨stack, alterKind kind List.tail nesting.byKind⟩ := by
  intro other
  have hlookup := lookup_alterKind kind other List.tail nesting.byKind
  have hother := h other
  rw [ofKind, hstack] at hother
  rw [ofKind, hlookup, hother]
  by_cases hkind : other = kind
  · simp [hkind, onStack]
  · simp [hkind, Ne.symm hkind, onStack]

/-- A group of a kind is open if one is on the stack. -/
theorem InStep.isInside_iff {nesting : Nesting K} (h : nesting.InStep) (kind : K) :
    nesting.isInside kind ↔ kind ∈ nesting.stack.map (·.1) := by
  rw [isInside, depthOf, h kind, onStack, List.length_map, decide_eq_true_eq, gt_iff_lt,
    List.length_pos_iff_exists_mem]
  constructor
  · rintro ⟨entry, hentry⟩
    rw [List.mem_filter, decide_eq_true_eq] at hentry
    exact List.mem_map.2 ⟨entry, hentry⟩
  · intro hkind
    obtain ⟨entry, hentry, rfl⟩ := List.mem_map.1 hkind
    exact ⟨entry, List.mem_filter.2 ⟨hentry, decide_eq_true rfl⟩⟩

/-! ## Calls -/

/-- A call that opens or closes groups. -/
inductive Call (K : Type)
  | push (kind : K) (id : NodeId)
  | pop (kind : K)
  | clear
  deriving DecidableEq, Repr

/-- What a call answers. Only a `pop` does: it has the group that was closed, or why none was. -/
abbrev Answer (K : Type) := Option (Except (CloseMismatch K) NodeId)

/-- The answer to a call, and the open groups after it. -/
def call (nesting : Nesting K) : Call K → Answer K × Nesting K
  | .push kind id => (none, nesting.push kind id)
  | .pop kind =>
    match nesting.pop kind with
    | .ok (id, next) => (some (.ok id), next)
    | .error mismatch => (some (.error mismatch), nesting)
  | .clear => (none, nesting.clear)

/-- Where no group is closed, nothing changes. -/
theorem call_pop_of_error {nesting : Nesting K} {kind : K} {mismatch : CloseMismatch K}
    (h : (nesting.call (.pop kind)).1 = some (.error mismatch)) :
    (nesting.call (.pop kind)).2 = nesting := by
  rw [call] at h ⊢
  cases hpop : nesting.pop kind with
  | ok closed =>
    rw [hpop] at h
    cases h
  | error => rfl

/-- The answers to some calls that are made one after the other, and what is there after them. -/
def answers {S : Type} (call : S → Call K → Answer K × S) (state : S) :
    List (Call K) → List (Answer K) × S
  | [] => ([], state)
  | first :: rest =>
    let (answer, next) := call state first
    let (later, last) := answers call next rest
    (answer :: later, last)

/-! ## One list -/

/-- Open groups with their kinds in one list, the innermost last. -/
abbrev Listing (K : Type) := List (K × NodeId)

namespace Listing

/-- The answer to a call, and the list after it. Only its last group can be closed. -/
def call (listing : Listing K) : Call K → Answer K × Listing K
  | .push kind id => (none, listing ++ [(kind, id)])
  | .pop kind =>
    match listing.getLast? with
    | none => (some (.error .nothingOpen), listing)
    | some (last, id) =>
      if last = kind then (some (.ok id), listing.dropLast)
      else (some (.error (.interleaved last)), listing)
  | .clear => (none, [])

end Listing

/-- The open groups are those of a list. -/
structure Lists (nesting : Nesting K) (listing : Listing K) : Prop where
  stack : nesting.stack = listing.reverse
  inStep : nesting.InStep

namespace Lists

variable {nesting : Nesting K} {listing : Listing K}

theorem empty : Lists ({} : Nesting K) [] := ⟨rfl, inStep_empty⟩

theorem innermost? (h : nesting.Lists listing) : nesting.innermost? = listing.getLast? := by
  rw [Nesting.innermost?, h.stack, List.head?_reverse]

/-- **Each kind has its part of the list.** -/
theorem ofKind (h : nesting.Lists listing) (kind : K) :
    nesting.ofKind kind = (onStack listing kind).reverse := by
  rw [h.inStep kind, h.stack, onStack_reverse]

/-- What closing a group of a kind answers and leaves, by the end of the list. -/
theorem call_pop (h : nesting.Lists listing) (kind : K) :
    (nesting.call (.pop kind)).1 = (Listing.call listing (.pop kind)).1 ∧
      (nesting.call (.pop kind)).2.Lists (Listing.call listing (.pop kind)).2 := by
  rcases List.eq_nil_or_concat listing with rfl | ⟨front, ⟨last, id⟩, rfl⟩
  · rw [Nesting.call, pop_nil h.stack kind]
    exact ⟨rfl, h⟩
  · have hstack : nesting.stack = (last, id) :: front.reverse := by rw [h.stack]; simp
    by_cases hkind : last = kind
    · subst hkind
      rw [Nesting.call, pop_cons hstack, Listing.call]
      simpa using ⟨rfl, h.inStep.pop hstack⟩
    · rw [Nesting.call, pop_of_ne hstack hkind, Listing.call]
      simpa [hkind] using h

/-- **A call is answered in the same way**, and the open groups are those of the list after it. -/
theorem call (h : nesting.Lists listing) (call : Call K) :
    (nesting.call call).1 = (Listing.call listing call).1 ∧
      (nesting.call call).2.Lists (Listing.call listing call).2 := by
  cases call with
  | push kind id =>
    refine ⟨rfl, ?_, h.inStep.push kind id⟩
    rw [Listing.call, List.reverse_concat, ← h.stack]
    rfl
  | pop kind => exact h.call_pop kind
  | clear => exact ⟨rfl, empty⟩

/-- **All calls are answered in the same way.** -/
theorem answers (h : nesting.Lists listing) (calls : List (Call K)) :
    (Nesting.answers Nesting.call nesting calls).1 =
        (Nesting.answers Listing.call listing calls).1 ∧
      (Nesting.answers Nesting.call nesting calls).2.Lists
        (Nesting.answers Listing.call listing calls).2 := by
  induction calls generalizing nesting listing with
  | nil => exact ⟨rfl, h⟩
  | cons first rest ih =>
    obtain ⟨hanswer, hnext⟩ := h.call first
    obtain ⟨hlater, hlast⟩ := ih hnext
    exact ⟨List.cons_eq_cons.2 ⟨hanswer, hlater⟩, hlast⟩

end Lists

/-! ## What closing a group says of the list -/

namespace Listing

variable {listing : Listing K} {kind : K}

theorem call_pop_eq_ok_iff {id : NodeId} :
    (call listing (.pop kind)).1 = some (.ok id) ↔ listing.getLast? = some (kind, id) := by
  rw [call]
  split
  next h => simp [h]
  next last other h =>
    by_cases hkind : last = kind <;> simp [h, hkind]

theorem call_pop_eq_nothingOpen_iff :
    (call listing (.pop kind)).1 = some (.error .nothingOpen) ↔ listing = [] := by
  rw [← List.getLast?_eq_none_iff, call]
  split
  next h => simp [h]
  next last other h =>
    by_cases hkind : last = kind <;> simp [h, hkind]

theorem call_pop_eq_interleaved_iff {other : K} :
    (call listing (.pop kind)).1 = some (.error (.interleaved other)) ↔
      other ≠ kind ∧ ∃ id, listing.getLast? = some (other, id) := by
  rw [call]
  split
  next h => simp [h]
  next last id h =>
    by_cases hkind : last = kind
    · simp [h, hkind, eq_comm]
    · rw [if_neg hkind, h]
      constructor
      · intro heq
        cases heq
        exact ⟨hkind, id, rfl⟩
      · rintro ⟨-, _, heq⟩
        cases heq
        rfl

end Listing

/-- **The open groups are one list.** All calls are answered as the list answers them, and after any
of them:

* The groups of a kind are its part of the list. They are as many as it has, the innermost is its
  last, and one is open if it is not empty.
* The innermost group of all is the last of the list, and as many are open as it has.
* Closing a group of a kind gives the last of the list if that has the kind. If the list is empty,
  or its last has another kind, the answer says so, and nothing changes. -/
theorem oneList_of_calls (calls : List (Call K)) :
    let nesting := (answers call ({} : Nesting K) calls).2
    let listing := (answers Listing.call [] calls).2
    (answers call ({} : Nesting K) calls).1 = (answers Listing.call [] calls).1 ∧
    (∀ kind,
      (nesting.ofKind kind).reverse = onStack listing kind ∧
      nesting.depthOf kind = (onStack listing kind).length ∧
      nesting.currentOf? kind = (onStack listing kind).getLast? ∧
      (nesting.isInside kind ↔ onStack listing kind ≠ [])) ∧
    (nesting.innermost? = listing.getLast? ∧ nesting.current? = listing.getLast?.map (·.2) ∧
      nesting.depth = listing.length ∧ nesting.isEmpty = listing.isEmpty) ∧
    ∀ kind,
      (∀ id, (nesting.call (.pop kind)).1 = some (.ok id) ↔ listing.getLast? = some (kind, id)) ∧
      ((nesting.call (.pop kind)).1 = some (.error .nothingOpen) ↔ listing = []) ∧
      (∀ other, (nesting.call (.pop kind)).1 = some (.error (.interleaved other)) ↔
        other ≠ kind ∧ ∃ id, listing.getLast? = some (other, id)) ∧
      ∀ mismatch, (nesting.call (.pop kind)).1 = some (.error mismatch) →
        (nesting.call (.pop kind)).2 = nesting := by
  intro nesting listing
  obtain ⟨hanswers, hlists⟩ := Lists.empty.answers calls
  have hlists : nesting.Lists listing := hlists
  refine ⟨hanswers, fun kind => ?_, ⟨hlists.innermost?, ?_, ?_, ?_⟩, fun kind => ?_⟩
  · have hkind := hlists.ofKind kind
    refine ⟨by rw [hkind, List.reverse_reverse], ?_, ?_, ?_⟩
    · rw [depthOf, hkind, List.length_reverse]
    · rw [currentOf?, hkind, List.head?_reverse]
    · rw [isInside, depthOf, hkind, List.length_reverse, decide_eq_true_eq, gt_iff_lt,
        List.length_pos_iff]
  · rw [current?, hlists.innermost?]
  · rw [depth, hlists.stack, List.length_reverse]
  · rw [isEmpty, hlists.stack, List.isEmpty_reverse]
  · have hpop := (hlists.call_pop kind).1
    refine ⟨fun id => ?_, ?_, fun other => ?_, fun mismatch h => ?_⟩
    · rw [hpop, Listing.call_pop_eq_ok_iff]
    · rw [hpop, Listing.call_pop_eq_nothingOpen_iff]
    · rw [hpop, Listing.call_pop_eq_interleaved_iff]
    · exact call_pop_of_error h

/-- A group cannot be closed before those inside it. All of a kind can be closed and one opened
again. -/
example : (answers call ({} : Nesting Bool) [.push true 1, .push false 2, .pop true, .pop false,
    .pop true, .pop true, .push true 3, .pop true]).1 =
    [none, none, some (.error (.interleaved false)), some (.ok 2), some (.ok 1),
      some (.error .nothingOpen), none, some (.ok 3)] := rfl

end GlobTree.Nesting
