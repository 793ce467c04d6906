import Mathlib.Init
/-!
# Results taken apart

A computation that may fail and did not has a result in each of its parts, and one that failed has
the error of its first part that did (`error?_append`). An entry that was looked up is the first one
of its kind (`idxOf?_eq_some_iff`).
-/

namespace GlobTree

variable {ε α β : Type} {result : Except ε α} {b : β}

theorem map_eq_ok_iff {f : α → β} : result.map f = .ok b ↔ ∃ a, result = .ok a ∧ f a = b := by
  cases result <;> simp [Except.map]

theorem bind_eq_ok_iff {next : α → Except ε β} :
    result >>= next = .ok b ↔ ∃ a, result = .ok a ∧ next a = .ok b := by
  cases result <;> simp [bind, Except.bind]

/-! ## Errors -/

/-- The error of a computation that failed. -/
def error? : Except ε α → Option ε
  | .ok _ => none
  | .error e => some e

@[simp] theorem error?_ok (a : α) : error? (.ok a : Except ε α) = none := rfl

@[simp] theorem error?_error (e : ε) : error? (.error e : Except ε α) = some e := rfl

theorem error?_eq_some_iff {e : ε} : error? result = some e ↔ result = .error e := by
  cases result <;> simp [error?]

@[simp] theorem error?_map (f : α → β) : error? (result.map f) = error? result := by
  cases result <;> rfl

@[simp] theorem error?_mapError {δ : Type} (f : ε → δ) :
    error? (result.mapError f) = (error? result).map f := by
  cases result <;> rfl

/-- One result after the other. -/
theorem error?_append (first second : Except ε (List α)) :
    error? (do return (← first) ++ (← second)) = (error? first).or (error? second) := by
  cases first <;> cases second <;> rfl

/-! ## Entries that are looked up -/

/-- An entry is found where it stands first. -/
theorem idxOf?_eq_some_iff [BEq α] [LawfulBEq α] {entries : Array α} {a : α} {index : Nat} :
    entries.idxOf? a = some index ↔
      entries[index]? = some a ∧ ∀ j < index, entries[j]? ≠ some a := by
  obtain ⟨l⟩ := entries
  rw [List.idxOf?_toArray, List.idxOf?_eq_some_iff]
  simp only [List.getElem?_toArray]
  constructor
  · rintro ⟨hlt, hentry, hfirst⟩
    refine ⟨by rw [List.getElem?_eq_getElem hlt, hentry], fun j hj heq => hfirst j hj ?_⟩
    rw [List.getElem?_eq_getElem (Nat.lt_trans hj hlt)] at heq
    exact Option.some.inj heq
  · rintro ⟨hentry, hfirst⟩
    obtain ⟨hlt, hentry⟩ := List.getElem?_eq_some_iff.1 hentry
    refine ⟨hlt, hentry, fun j hj heq => hfirst j hj ?_⟩
    rw [List.getElem?_eq_getElem (Nat.lt_trans hj hlt), heq]

end GlobTree
