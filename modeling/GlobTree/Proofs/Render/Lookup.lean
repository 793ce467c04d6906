import GlobTree.Render.SourceMap
/-!
# Finding a mapping

`SourceMap.bisect` halves a stretch of mappings until one is left. It is right about mappings that
are in order, of which it needs only this much: that those which start at or before the offset are
the first ones (`SourceMap.lookup?_eq`). The mapping found is the last of them, and there is none if
all mappings start after the offset (`SourceMap.lookup?_eq_none`).
-/

namespace GlobTree

namespace SourceMap

/-- The mapping with some index starts at or before an offset. -/
def StartsBefore (mappings : Array Mapping) (offset index : Nat) : Prop :=
  ∃ mapping, mappings[index]? = some mapping ∧ mapping.generated.offset ≤ offset

theorem any_eq_true_iff (mappings : Array Mapping) (offset index : Nat) :
    (mappings[index]?).any (·.generated.offset ≤ offset) = true ↔
      StartsBefore mappings offset index := by
  simp only [Option.any_eq_true, decide_eq_true_eq, StartsBefore]

/-- **Halving finds the last mapping that starts at or before an offset**, if it is in the stretch
and there are steps enough. -/
theorem bisect_eq {mappings : Array Mapping} {offset found : Nat}
    (ordered : ∀ index, StartsBefore mappings offset index ↔ index ≤ found) {n base size : Nat}
    (first : base ≤ found) (last : found < base + size) (enough : size ≤ n + 1) :
    bisect mappings offset n base size = found := by
  induction n generalizing base size with
  | zero =>
    have hfound : base = found := by omega
    exact hfound
  | succ n ih =>
    rw [bisect]
    split
    next single => omega
    next several =>
      have hmiddle :=
        (any_eq_true_iff mappings offset (base + size / 2)).trans (ordered (base + size / 2))
      dsimp only
      -- The half that is kept has `found` in it.
      by_cases h : base + size / 2 ≤ found
      · rw [if_pos (hmiddle.2 h)]
        exact ih h (by omega) (by omega)
      · rw [if_neg (mt hmiddle.1 h)]
        exact ih first (by omega) (by omega)

variable {map : SourceMap} {offset : Nat}

/-- **What is found for an offset is the last mapping that starts at or before it.** -/
theorem lookup?_eq {found : Nat}
    (ordered : ∀ index, StartsBefore map.mappings offset index ↔ index ≤ found) :
    map.lookup? offset = map.mappings[found]? := by
  obtain ⟨mapping, hmapping, hle⟩ := (ordered found).2 (Nat.le_refl _)
  obtain ⟨hsize, -⟩ := Array.getElem?_eq_some_iff.1 hmapping
  have hbisect : bisect map.mappings offset map.size 0 map.size = found :=
    bisect_eq ordered (Nat.zero_le _) (by rwa [Nat.zero_add]) (Nat.le_succ _)
  rw [lookup?, hbisect, hmapping]
  exact Option.filter_some_pos (by simpa using hle)

/-- Nothing is found before the first mapping. -/
theorem lookup?_eq_none (all : ∀ index, ¬ StartsBefore map.mappings offset index) :
    map.lookup? offset = none := by
  refine Option.filter_eq_none_iff.2 fun mapping hmapping hle => ?_
  exact all _ ⟨mapping, hmapping, by simpa using hle⟩

end SourceMap

end GlobTree
