import GlobTree.Proofs.Text
/-!
# Lines and columns, one character at a time and byte by byte

`Location.advance` says where a whole text leads, in numbers without a limit. There are two more ways
to find that place.

* `Location.step` reads one character: a line feed starts a line, and every other character takes a
  column. A text leads where its characters lead one after the other (`Location.advance_eq_foldl`).
* `Location.advanceBytes?` works on the bytes of the text, in the numbers of a machine: it counts the
  bytes of line feeds, looks for the last one and cuts the text behind it, to count the characters
  that are left. A cut may fall inside a character. This one does not, as the byte of a line feed is
  in no other character (`lineFeed_notMem_utf8EncodeChar`).

The numbers of a machine end at a limit. `Sums` are the ways to add them: a sum below the limit is
what it is, and the others are left open. Whatever becomes of them, the way over the bytes leads to
the same place as long as no place in the text is beyond the limit (`Location.Room`). That is so for
every text that is read from the start, if it is not about as long as the limit
(`Location.room_start`).

Without that there are two cases. Sums that are checked stop exactly if the place reached is beyond
the limit. Sums that start over at zero lead to the remainders of that place, so that reading in two
parts still leads to the same place as reading at once, but it may be one before the start.
-/

namespace GlobTree

/-! ## Line feeds as bytes -/

/-- The bytes of the UTF-8 form of a text. -/
def utf8Bytes (text : List Char) : List UInt8 := text.flatMap String.utf8EncodeChar

/-- The byte of a line feed. -/
def lineFeed : UInt8 := 10

/-- The offset of the last line feed among some bytes. -/
def lastLineFeed? : List UInt8 → Option Nat
  | [] => none
  | byte :: rest => ((lastLineFeed? rest).map (· + 1)).or (if byte = lineFeed then some 0 else none)

@[simp]
theorem utf8Bytes_append (a b : List Char) : utf8Bytes (a ++ b) = utf8Bytes a ++ utf8Bytes b :=
  List.flatMap_append

@[simp]
theorem utf8Bytes_cons (c : Char) (cs : List Char) :
    utf8Bytes (c :: cs) = String.utf8EncodeChar c ++ utf8Bytes cs := List.flatMap_cons

@[simp]
theorem length_utf8Bytes (text : List Char) : (utf8Bytes text).length = byteLength text := by
  induction text with
  | nil => rfl
  | cons c cs ih => simp [ih]

theorem utf8EncodeChar_lineFeed : String.utf8EncodeChar '\n' = [lineFeed] := by decide

/-- **The byte of a line feed is in no other character.** -/
theorem lineFeed_notMem_utf8EncodeChar {c : Char} (h : c ≠ '\n') :
    lineFeed ∉ String.utf8EncodeChar c := by
  have hcode : c.val.toNat ≠ 10 := fun hcode => h (Char.ext (UInt32.toNat.inj hcode))
  have hbyte (n : Nat) (hn : n % 256 ≠ 10) : lineFeed ≠ UInt8.ofNat n := by
    intro heq
    apply hn
    rw [← UInt8.toNat_ofNat', ← heq]
    rfl
  -- A character of one byte has its code there; all bytes of a longer one are at least 128.
  rw [String.utf8EncodeChar]
  grind

/-- Line feeds can be counted in bytes. -/
theorem count_utf8Bytes (text : List Char) :
    (utf8Bytes text).count lineFeed = text.count '\n' := by
  induction text with
  | nil => rfl
  | cons c cs ih =>
    rw [utf8Bytes_cons, List.count_append, ih, List.count_cons]
    by_cases h : c = '\n'
    · rw [h, utf8EncodeChar_lineFeed, List.count_singleton_self, beq_self_eq_true, if_pos rfl,
        Nat.add_comm]
    · rw [List.count_eq_zero.2 (lineFeed_notMem_utf8EncodeChar h), if_neg (by simpa using h),
        Nat.zero_add, Nat.add_zero]

theorem lineFeed_mem_utf8Bytes_iff {text : List Char} :
    lineFeed ∈ utf8Bytes text ↔ '\n' ∈ text := by
  rw [← List.count_pos_iff, count_utf8Bytes, List.count_pos_iff]

theorem lastLineFeed?_eq_none {bytes : List UInt8} (h : lineFeed ∉ bytes) :
    lastLineFeed? bytes = none := by
  induction bytes with
  | nil => rfl
  | cons byte rest ih =>
    rw [List.mem_cons, not_or] at h
    rw [lastLineFeed?, ih h.2, if_neg (Ne.symm h.1)]
    rfl

/-- A line feed with none behind it is the last one. -/
theorem lastLineFeed?_append {bytes : List UInt8} (front : List UInt8) (h : lineFeed ∉ bytes) :
    lastLineFeed? (front ++ lineFeed :: bytes) = some front.length := by
  induction front with
  | nil =>
    rw [List.nil_append, lastLineFeed?, lastLineFeed?_eq_none h, if_pos rfl]
    rfl
  | cons byte front ih =>
    rw [List.cons_append, lastLineFeed?, ih]
    rfl

/-- The last line of a text of several lines. -/
theorem exists_lastLine {text : List Char} (h : '\n' ∈ text) :
    ∃ front line, text = front ++ '\n' :: line ∧ '\n' ∉ line := by
  obtain ⟨line, front, hreverse, hline⟩ := List.eq_append_cons_of_mem (List.mem_reverse.2 h)
  refine ⟨front.reverse, line.reverse, ?_, fun hmem => hline (List.mem_reverse.1 hmem)⟩
  rw [← List.reverse_reverse text, hreverse]
  simp

namespace Location

/-! ## One character at a time -/

/-- The place reached after reading one character. -/
def step (place : Location) (c : Char) : Location where
  offset := place.offset + c.utf8Size
  line := if c = '\n' then place.line + 1 else place.line
  column := if c = '\n' then 1 else place.column + 1

theorem advance_singleton (place : Location) (c : Char) : place.advance [c] = place.step c := by
  by_cases h : c = '\n'
  · simp [advance, step, h]
  · simp [advance, step, h, Ne.symm h]

/-- **A text leads where its characters lead one after the other.** -/
theorem advance_eq_foldl (place : Location) (text : List Char) :
    place.advance text = text.foldl step place := by
  induction text generalizing place with
  | nil => exact advance_nil place
  | cons c cs ih =>
    calc place.advance (c :: cs)
      _ = (place.advance [c]).advance cs := advance_append place [c] cs
      _ = cs.foldl step (place.step c) := by rw [advance_singleton, ih]

/-! ## The numbers of a machine -/

/-- A place that can be written down with numbers below a limit. -/
structure Below (limit : Nat) (place : Location) : Prop where
  offset : place.offset < limit
  line : place.line < limit
  column : place.column < limit

instance (limit : Nat) (place : Location) : Decidable (place.Below limit) :=
  decidable_of_iff (place.offset < limit ∧ place.line < limit ∧ place.column < limit)
    ⟨fun ⟨hoffset, hline, hcolumn⟩ => ⟨hoffset, hline, hcolumn⟩,
      fun below => ⟨below.offset, below.line, below.column⟩⟩

/-- No place in a text that is read from here is beyond the limit. -/
def Room (limit : Nat) (place : Location) (text : List Char) : Prop :=
  ∀ part, part <+: text → (place.advance part).Below limit

/-- The remainders of a place. -/
def wrap (limit : Nat) (place : Location) : Location :=
  ⟨place.offset % limit, place.line % limit, place.column % limit⟩

end Location

/-- A way to add numbers below a limit. A sum below the limit is what it is. -/
structure Sums (limit : Nat) where
  add? : Nat → Nat → Option Nat
  add?_of_lt {a b : Nat} : a + b < limit → add? a b = some (a + b)

namespace Sums

/-- There is no sum beyond the limit. -/
def checked (limit : Nat) : Sums limit where
  add? a b := if a + b < limit then some (a + b) else none
  add?_of_lt h := if_pos h

theorem add?_checked_eq_none {limit a b : Nat} (h : ¬ a + b < limit) :
    (checked limit).add? a b = none := if_neg h

/-- At the limit the sums start over at zero. -/
def wrapping (limit : Nat) : Sums limit where
  add? a b := some ((a + b) % limit)
  add?_of_lt h := congrArg some (Nat.mod_eq_of_lt h)

end Sums

namespace Location

variable {limit : Nat} (sums : Sums limit)

/-- The place reached after reading one character, in the numbers of a machine. -/
def step? (place : Location) (c : Char) : Option Location := do
  let offset ← sums.add? place.offset c.utf8Size
  if c = '\n' then
    let line ← sums.add? place.line 1
    return ⟨offset, line, 1⟩
  else
    let column ← sums.add? place.column 1
    return ⟨offset, place.line, column⟩

/-- The place reached after reading `text`, found with the bytes of the text and in the numbers of a
machine. There is none if one of the sums is missing, or if the cut behind the last line feed falls
inside a character. -/
def advanceBytes? (place : Location) (text : List Char) : Option Location := do
  let bytes := utf8Bytes text
  let offset ← sums.add? place.offset bytes.length
  match lastLineFeed? bytes with
  | some last =>
    -- An offset in the text is below its length, so that this sum needs no room.
    let tail ← dropBytes? (last + 1) text
    let line ← sums.add? place.line (bytes.count lineFeed)
    let column ← sums.add? tail.length 1
    return ⟨offset, line, column⟩
  | none =>
    let column ← sums.add? place.column text.length
    return ⟨offset, place.line, column⟩

/-- The column after the last line feed counts the characters behind it. -/
theorem advance_lastLine (place : Location) (front : List Char) {line : List Char}
    (h : '\n' ∉ line) :
    (place.advance (front ++ '\n' :: line)).column = line.length + 1 := by
  rw [advance_append, ← List.singleton_append, advance_append, advance_singleton]
  simp only [advance, step, if_neg h, if_true, Nat.add_comm]

/-- A text of one line only takes up columns. -/
theorem advance_of_notMem (place : Location) {text : List Char} (h : '\n' ∉ text) :
    place.advance text =
      ⟨place.offset + byteLength text, place.line, place.column + text.length⟩ := by
  simp [advance, h, List.count_eq_zero.2 h]

/-- The sums that are made on the way over the bytes. The cut is always at a boundary. -/
theorem advanceBytes?_cases (place : Location) (text : List Char) :
    ('\n' ∈ text ∧ ∃ tail, (place.advance text).column = tail + 1 ∧ tail < byteLength text ∧
      place.advanceBytes? sums text =
        (sums.add? place.offset (byteLength text)).bind fun offset =>
          (sums.add? place.line (text.count '\n')).bind fun line =>
            (sums.add? tail 1).map fun column => ⟨offset, line, column⟩) ∨
    ('\n' ∉ text ∧ place.advanceBytes? sums text =
      (sums.add? place.offset (byteLength text)).bind fun offset =>
        (sums.add? place.column text.length).map fun column => ⟨offset, place.line, column⟩) := by
  by_cases h : '\n' ∈ text
  · obtain ⟨front, line, rfl, hline⟩ := exists_lastLine h
    have hlast : lastLineFeed? (utf8Bytes (front ++ '\n' :: line)) = some (byteLength front) := by
      rw [utf8Bytes_append, utf8Bytes_cons, utf8EncodeChar_lineFeed, List.singleton_append,
        lastLineFeed?_append _ (mt lineFeed_mem_utf8Bytes_iff.1 hline), length_utf8Bytes]
    -- Up to the last line feed and with it, the bytes are those of a first part of the text.
    have hcut : dropBytes? (byteLength front + 1) (front ++ '\n' :: line) = some line := by
      have hfront : byteLength front + 1 = byteLength (front ++ ['\n']) := by
        rw [byteLength_append]
        rfl
      rw [hfront, List.append_cons front '\n' line, dropBytes?_append]
    have hlength : line.length < byteLength (front ++ '\n' :: line) := by
      have hle := length_le_byteLength line
      have hfeed : byteLength ('\n' :: line) = 1 + byteLength line := rfl
      rw [byteLength_append, hfeed]
      omega
    refine .inl ⟨h, line.length, advance_lastLine place front hline, hlength, ?_⟩
    simp only [advanceBytes?, hlast, hcut, length_utf8Bytes, count_utf8Bytes, bind, Option.bind_some,
      pure, Option.map_eq_bind, Function.comp_def]
  · have hlast := lastLineFeed?_eq_none (mt lineFeed_mem_utf8Bytes_iff.1 h)
    refine .inr ⟨h, ?_⟩
    simp only [advanceBytes?, hlast, length_utf8Bytes, bind, pure, Option.map_eq_bind,
      Function.comp_def]

/-! ## Within the limit -/

/-- **The place can be found with the bytes**, if it is not beyond the limit. -/
theorem advanceBytes?_of_below {place : Location} {text : List Char}
    (below : (place.advance text).Below limit) :
    place.advanceBytes? sums text = some (place.advance text) := by
  obtain ⟨hoffset, hline, hcolumn⟩ := below
  rcases advanceBytes?_cases sums place text with ⟨h, tail, htail, -, hsums⟩ | ⟨h, hsums⟩
  · rw [htail] at hcolumn
    rw [hsums, sums.add?_of_lt hoffset, sums.add?_of_lt hline, sums.add?_of_lt hcolumn, ← htail]
    rfl
  · rw [advance_of_notMem place h] at hcolumn ⊢
    rw [hsums, sums.add?_of_lt hoffset, sums.add?_of_lt hcolumn]
    rfl

theorem step?_of_below {place : Location} {c : Char} (below : (place.step c).Below limit) :
    place.step? sums c = some (place.step c) := by
  obtain ⟨hoffset, hline, hcolumn⟩ := below
  rw [step?, sums.add?_of_lt hoffset]
  by_cases h : c = '\n'
  · simp only [step, h, if_true] at hline ⊢
    rw [sums.add?_of_lt hline]
    rfl
  · simp only [step, if_neg h] at hcolumn ⊢
    rw [sums.add?_of_lt hcolumn]
    rfl

section Room

variable {place : Location} {text a b : List Char}

theorem Room.below (room : place.Room limit text) : (place.advance text).Below limit :=
  room text List.prefix_rfl

theorem Room.left (room : place.Room limit (a ++ b)) : place.Room limit a :=
  fun part hpart => room part (hpart.trans (List.prefix_append a b))

theorem Room.right (room : place.Room limit (a ++ b)) : (place.advance a).Room limit b := by
  intro part hpart
  rw [← advance_append]
  exact room (a ++ part) ((List.prefix_append_right_inj a).2 hpart)

/-- There is room for a text that is read from the start and not about as long as the limit. -/
theorem room_start (h : byteLength text + 1 < limit) : start.Room limit text := by
  rintro part ⟨rest, rfl⟩
  rw [byteLength_append] at h
  have hlength := length_le_byteLength part
  have hcount : part.count '\n' ≤ part.length := List.count_le_length
  have htail := (List.takeWhile_prefix (· ≠ '\n') (l := part.reverse)).length_le
  rw [List.length_reverse] at htail
  refine ⟨?_, ?_, ?_⟩
  · show 0 + byteLength part < limit
    omega
  · show 1 + part.count '\n' < limit
    omega
  · simp only [advance, start]
    split <;> omega

/-- **Where there is room, the characters can be read one after the other.** -/
theorem foldlM_step?_of_room (room : place.Room limit text) :
    text.foldlM (step? sums) place = some (place.advance text) := by
  induction text generalizing place with
  | nil => simp
  | cons c cs ih =>
    have hsplit : c :: cs = [c] ++ cs := rfl
    rw [hsplit] at room ⊢
    have hstep := step?_of_below sums (advance_singleton place c ▸ room.left.below)
    have hrest := ih (advance_singleton place c ▸ room.right)
    rw [advance_append, advance_singleton, List.singleton_append, List.foldlM_cons, hstep]
    exact hrest

end Room

/-! ## Beyond the limit -/

section Beyond

variable {place : Location}

/-- **Checked sums stop exactly if the place reached is beyond the limit.** -/
theorem advanceBytes?_checked (below : place.Below limit) (text : List Char) :
    place.advanceBytes? (.checked limit) text =
      if (place.advance text).Below limit then some (place.advance text) else none := by
  split
  next h => exact advanceBytes?_of_below _ h
  next h =>
    rcases advanceBytes?_cases (.checked limit) place text with
      ⟨-, tail, htail, hlt, hsums⟩ | ⟨hfeed, hsums⟩
    · by_cases hoffset : place.offset + byteLength text < limit
      · -- The column counts a part of the text, so that only the line can be beyond the limit.
        have hline : ¬ place.line + text.count '\n' < limit := by
          intro hline
          have hcolumn : (place.advance text).column < limit := by omega
          exact h ⟨hoffset, hline, hcolumn⟩
        rw [hsums, Sums.add?_of_lt _ hoffset, Sums.add?_checked_eq_none hline]
        rfl
      · rw [hsums, Sums.add?_checked_eq_none hoffset]
        rfl
    · rw [advance_of_notMem place hfeed] at h
      by_cases hoffset : place.offset + byteLength text < limit
      · have hcolumn : ¬ place.column + text.length < limit :=
          fun hcolumn => h ⟨hoffset, below.line, hcolumn⟩
        rw [hsums, Sums.add?_of_lt _ hoffset, Sums.add?_checked_eq_none hcolumn]
        rfl
      · rw [hsums, Sums.add?_checked_eq_none hoffset]
        rfl

theorem below_wrap (hlimit : 0 < limit) (place : Location) : (place.wrap limit).Below limit :=
  ⟨Nat.mod_lt _ hlimit, Nat.mod_lt _ hlimit, Nat.mod_lt _ hlimit⟩

/-- Remainders can be taken once, at the end. -/
theorem wrap_advance_wrap (place : Location) (text : List Char) :
    ((place.wrap limit).advance text).wrap limit = (place.advance text).wrap limit := by
  by_cases h : '\n' ∈ text <;> simp [wrap, advance, h]

/-- **Sums that start over lead to the remainders of the place.** -/
theorem advanceBytes?_wrapping (below : place.Below limit) (text : List Char) :
    place.advanceBytes? (.wrapping limit) text = some ((place.advance text).wrap limit) := by
  rcases advanceBytes?_cases (.wrapping limit) place text with
    ⟨-, tail, htail, -, hsums⟩ | ⟨hfeed, hsums⟩
  · rw [hsums, wrap, htail]
    rfl
  · rw [hsums, advance_of_notMem place hfeed, wrap]
    simp only [Nat.mod_eq_of_lt below.line]
    rfl

theorem step?_wrapping (hlimit : 1 < limit) (below : place.Below limit) (c : Char) :
    place.step? (.wrapping limit) c = some ((place.step c).wrap limit) := by
  by_cases h : c = '\n'
  · simp [step?, step, wrap, Sums.wrapping, h, Nat.mod_eq_of_lt hlimit]
  · simp [step?, step, wrap, Sums.wrapping, h, Nat.mod_eq_of_lt below.line]

/-- **Characters that are read one after the other** lead to the remainders of the place as well. -/
theorem foldlM_step?_wrapping (hlimit : 1 < limit) (below : place.Below limit) (text : List Char) :
    text.foldlM (step? (.wrapping limit)) place = some ((place.advance text).wrap limit) := by
  induction text generalizing place with
  | nil =>
    obtain ⟨hoffset, hline, hcolumn⟩ := below
    simp [wrap, Nat.mod_eq_of_lt hoffset, Nat.mod_eq_of_lt hline, Nat.mod_eq_of_lt hcolumn]
  | cons c cs ih =>
    have hnext := ih (below_wrap (by omega) (place.step c))
    rw [List.foldlM_cons, step?_wrapping hlimit below]
    calc cs.foldlM (step? (.wrapping limit)) ((place.step c).wrap limit)
      _ = some ((((place.step c).wrap limit).advance cs).wrap limit) := hnext
      _ = some ((place.advance (c :: cs)).wrap limit) := by
        rw [wrap_advance_wrap, ← advance_singleton, ← advance_append, List.singleton_append]

/-- Reading in two parts with sums that start over. -/
theorem advanceBytes?_append_wrapping (hlimit : 1 < limit) (below : place.Below limit)
    (a b : List Char) :
    place.advanceBytes? (.wrapping limit) (a ++ b) =
      (place.advanceBytes? (.wrapping limit) a).bind (·.advanceBytes? (.wrapping limit) b) := by
  have hmiddle := below_wrap (by omega : 0 < limit) (place.advance a)
  rw [advanceBytes?_wrapping below, advanceBytes?_wrapping below, Option.bind_some,
    advanceBytes?_wrapping hmiddle, wrap_advance_wrap, advance_append]

end Beyond

/-! ## The order of places -/

theorem compare_advance_eq_iff (place : Location) (text : List Char) :
    compare place (place.advance text) = .eq ↔ text = [] := by
  cases text with
  | nil => simp [compare_self]
  | cons c cs => simp [compare_advance_cons]

theorem advance_eq_self_iff (place : Location) (text : List Char) :
    place.advance text = place ↔ text = [] := by
  constructor
  · intro h
    exact (compare_advance_eq_iff place text).1 (h.symm ▸ compare_self place)
  · rintro rfl
    exact advance_nil place

end Location

end GlobTree
