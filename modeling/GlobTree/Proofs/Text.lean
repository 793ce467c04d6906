import GlobTree.Text.Location
import GlobTree.Text.Reader
import Mathlib.Data.List.TakeWhile
/-!
# Cutting a text between two characters

What the partial operations on texts give where they are defined: a cut after the bytes of a text
that stands at the head (`splitBytes?_append`), a slice around a text in the middle
(`sliceBytes?_append`), a reader that reads on (`Reader.advance?_append`) and looks back at what it
read (`Reader.since?_after`).

Reading a text from a place can be done in two parts (`Location.advance_append`), and the line and
the column reached tell how much of a text was read (`Location.eq_of_advance`).
-/

namespace GlobTree

/-! ## Bytes -/

theorem utf8ByteSize_ofList (cs : List Char) : (String.ofList cs).utf8ByteSize = byteLength cs := by
  induction cs with
  | nil => simp
  | cons c cs ih =>
    have h : String.ofList (c :: cs) = String.singleton c ++ String.ofList cs := by
      rw [String.singleton_eq_ofList, ← String.ofList_append]
      rfl
    rw [h, String.utf8ByteSize_append, String.utf8ByteSize_singleton, ih, byteLength_cons]

/-- The library and the model agree on the number of bytes. -/
theorem byteLength_toList (text : String) : byteLength text.toList = text.utf8ByteSize := by
  rw [← utf8ByteSize_ofList, String.ofList_toList]

theorem length_le_byteLength (cs : List Char) : cs.length ≤ byteLength cs := by
  induction cs with
  | nil => exact Nat.le_refl _
  | cons c cs ih =>
    have hc := c.utf8Size_pos
    rw [List.length_cons, byteLength_cons]
    omega

/-- **A text at the head can be cut off by its number of bytes.** -/
theorem splitBytes?_append (a b : List Char) : splitBytes? (byteLength a) (a ++ b) = some (a, b) := by
  induction a with
  | nil => cases b <;> rfl
  | cons c a ih =>
    have hc := c.utf8Size_pos
    obtain ⟨n, hn⟩ : ∃ n, byteLength (c :: a) = n + 1 := ⟨byteLength (c :: a) - 1, by
      rw [byteLength_cons]
      omega⟩
    have hrest : n + 1 - c.utf8Size = byteLength a := by
      rw [byteLength_cons] at hn
      omega
    rw [hn, List.cons_append, splitBytes?, if_pos (by rw [byteLength_cons] at hn; omega), hrest, ih]
    rfl

/-- What is cut off has the number of bytes asked for. -/
theorem byteLength_of_splitBytes? {n : Nat} {cs front back : List Char}
    (cut : splitBytes? n cs = some (front, back)) : byteLength front = n := by
  induction cs generalizing n front with
  | nil =>
    cases n with
    | zero =>
      cases cut
      rfl
    | succ n => cases cut
  | cons c cs ih =>
    cases n with
    | zero =>
      cases cut
      rfl
    | succ n =>
      rw [splitBytes?] at cut
      split at cut
      · obtain ⟨⟨front', back'⟩, cut', heq⟩ := Option.map_eq_some_iff.1 cut
        cases heq
        rw [byteLength_cons, ih cut']
        omega
      · cases cut

theorem takeBytes?_append (a b : List Char) : takeBytes? (byteLength a) (a ++ b) = some a := by
  rw [takeBytes?, splitBytes?_append]
  rfl

theorem dropBytes?_append (a b : List Char) : dropBytes? (byteLength a) (a ++ b) = some b := by
  rw [dropBytes?, splitBytes?_append]
  rfl

/-- **A text in the middle is the slice between the bytes before it and the bytes up to its end.** -/
theorem sliceBytes?_append (a b c : List Char) :
    sliceBytes? (byteLength a) (byteLength a + byteLength b) (a ++ (b ++ c)) = some b := by
  rw [sliceBytes?, if_pos (by omega), dropBytes?_append, Nat.add_sub_cancel_left]
  exact takeBytes?_append b c

/-! ## Places -/

namespace Location

@[simp]
theorem advance_nil (place : Location) : place.advance [] = place := by
  simp [advance]

@[simp]
theorem advance_offset (place : Location) (text : List Char) :
    (place.advance text).offset = place.offset + byteLength text := rfl

@[simp]
theorem start_offset : start.offset = 0 := rfl

/-- **Reading two texts one after the other leads to the same place as reading both at once.** -/
theorem advance_append (place : Location) (a b : List Char) :
    place.advance (a ++ b) = (place.advance a).advance b := by
  have hline : (a ++ b).count '\n' = a.count '\n' + b.count '\n' := List.count_append
  by_cases hb : '\n' ∈ b
  · -- The column depends on what follows the last line feed, which is in `b`.
    have hcolumn : ((a ++ b).reverse.takeWhile (· ≠ '\n')) = b.reverse.takeWhile (· ≠ '\n') := by
      rw [List.reverse_append, List.takeWhile_append, if_neg]
      intro h
      have hall := List.takeWhile_eq_self_iff.1 (List.IsPrefix.eq_of_length
        (List.takeWhile_prefix _) h) '\n' (List.mem_reverse.2 hb)
      simp at hall
    simp only [advance, byteLength_append, hline, hcolumn, List.mem_append, hb, or_true, if_true,
      Nat.add_assoc]
  · have hall : b.reverse.takeWhile (· ≠ '\n') = b.reverse := by
      rw [List.takeWhile_eq_self_iff]
      intro c hc
      have hne : c ≠ '\n' := fun h => hb (h ▸ List.mem_reverse.1 hc)
      simpa using hne
    have hcolumn : ((a ++ b).reverse.takeWhile (· ≠ '\n')).length =
        b.length + (a.reverse.takeWhile (· ≠ '\n')).length := by
      rw [List.reverse_append, List.takeWhile_append, if_pos (by rw [hall]), List.length_append,
        List.length_reverse]
    by_cases ha : '\n' ∈ a
    · simp only [advance, byteLength_append, hline, hcolumn, List.mem_append, ha, hb, or_false,
        if_true, if_false, Nat.add_assoc, Location.mk.injEq, true_and]
      omega
    · simp [advance, ha, hb, hline, Nat.add_assoc]

/-- A text that leads to the line and the column where it starts is empty. -/
theorem eq_nil_of_advance {place : Location} {text : List Char}
    (hline : (place.advance text).line = place.line)
    (hcolumn : (place.advance text).column = place.column) : text = [] := by
  have hcount : text.count '\n' = 0 := Nat.add_left_cancel (hline.trans (Nat.add_zero _).symm)
  have hsame : place.column + text.length = place.column := by
    rwa [advance, if_neg (List.count_eq_zero.1 hcount)] at hcolumn
  exact List.eq_nil_of_length_eq_zero (Nat.add_left_cancel (hsame.trans (Nat.add_zero _).symm))

/-- **The line and the column at its end determine a first part of a text.** -/
theorem eq_of_advance {place : Location} {a b text : List Char} (ha : a <+: text) (hb : b <+: text)
    (hline : (place.advance a).line = (place.advance b).line)
    (hcolumn : (place.advance a).column = (place.advance b).column) : a = b := by
  rcases List.prefix_or_prefix_of_prefix ha hb with ⟨d, rfl⟩ | ⟨d, rfl⟩
  · rw [advance_append] at hline hcolumn
    rw [eq_nil_of_advance hline.symm hcolumn.symm, List.append_nil]
  · rw [advance_append] at hline hcolumn
    rw [eq_nil_of_advance hline hcolumn, List.append_nil]

theorem compare_self (place : Location) : compare place place = .eq := by
  simp [compare, Ordering.then, compareOfLessAndEq]

/-- Offsets are in the order of the places. -/
theorem offset_le_of_isLE {place other : Location} (h : (compare place other).isLE) :
    place.offset ≤ other.offset := by
  by_contra hlt
  have hgt : compare place.offset other.offset = .gt := Nat.compare_eq_gt.2 (by omega)
  have hcompare : compare place other = (compare place.offset other.offset).then _ := rfl
  rw [hcompare, hgt] at h
  cases h

/-- Reading a character leads to a later place. -/
theorem compare_advance_cons (place : Location) (c : Char) (cs : List Char) :
    compare place (place.advance (c :: cs)) = .lt := by
  have hc := c.utf8Size_pos
  have hlt : compare place.offset (place.advance (c :: cs)).offset = .lt := by
    rw [Nat.compare_eq_lt, advance_offset, byteLength_cons]
    omega
  have hcompare : compare place (place.advance (c :: cs)) =
    (compare place.offset (place.advance (c :: cs)).offset).then _ := rfl
  rw [hcompare, hlt]
  rfl

/-- **Reading on leads to no earlier place.** -/
theorem isLE_advance (place : Location) (text : List Char) :
    (compare place (place.advance text)).isLE := by
  cases text with
  | nil => rw [advance_nil, compare_self]; rfl
  | cons c cs => rw [compare_advance_cons]; rfl

end Location

/-! ## Readers -/

namespace Reader

theorem consumed_after (reader : Reader) (text rest : List Char) (split : reader.rest = text ++ rest) :
    (reader.after text rest split).consumed = reader.consumed ++ text := by
  simp [consumed, after]

theorem cursor_eq_byteLength_consumed (reader : Reader) :
    reader.cursor = byteLength reader.consumed := by
  rw [reader.cursor_eq, consumed, byteLength_reverse]

/-- **A reader reads on over a text that stands at its place.** -/
theorem advance?_append (reader : Reader) (text rest : List Char)
    (split : reader.rest = text ++ rest) :
    reader.advance? (byteLength text) = some (text, reader.after text rest split) := by
  have hmin : min (byteLength text) reader.left = byteLength text := by
    have h := reader.left_eq
    rw [split, byteLength_append] at h
    omega
  have hcut : splitBytes? (min (byteLength text) reader.left) reader.rest = some (text, rest) := by
    rw [hmin, split]
    exact splitBytes?_append text rest
  rw [advance?]
  split
  next text' rest' h =>
    rw [hcut, Option.some.injEq, Prod.mk.injEq] at h
    obtain ⟨rfl, rfl⟩ := h
    rfl
  next h =>
    rw [hcut] at h
    cases h

/-- The cursor moves by the number of bytes asked for, if they are there. -/
theorem cursor_of_advance? {reader reader' : Reader} {count : Nat} {text : List Char}
    (hcount : count ≤ byteLength reader.rest)
    (h : reader.advance? count = some (text, reader')) : reader'.cursor = reader.cursor + count := by
  have hmin : min count reader.left = count := by
    have hleft := reader.left_eq
    omega
  rw [advance?] at h
  split at h
  next text' rest' cut =>
    cases h
    show byteLength text + reader.cursor = reader.cursor + count
    rw [byteLength_of_splitBytes? cut, hmin, Nat.add_comm]
  next => cases h

/-- **What a reader read since it was at some place.** -/
theorem since?_after (reader : Reader) (text rest : List Char) (split : reader.rest = text ++ rest) :
    (reader.after text rest split).since? reader.cursor = some text := by
  have h : byteLength text + reader.cursor - reader.cursor = byteLength text.reverse := by
    rw [byteLength_reverse]
    omega
  simp only [since?, after, h, takeBytes?_append, Option.map_some, List.reverse_reverse]

end Reader

end GlobTree
