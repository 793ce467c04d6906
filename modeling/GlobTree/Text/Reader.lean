import GlobTree.Text.Bytes
/-!
# A text that is read from left to right

A `Reader` is a text with a place in it: the part that was read and the part that is left. More
text can be added at the end at any time. The place is between two characters, by construction.
-/

namespace GlobTree

/-- A text with a place in it. -/
structure Reader where
  /-- The text before the place, the nearest character first. -/
  before : List Char
  /-- The text from the place on. -/
  rest : List Char
  /-- The number of bytes that were read. -/
  cursor : Nat
  /-- The number of bytes that are left. -/
  left : Nat
  cursor_eq : cursor = byteLength before
  left_eq : left = byteLength rest
  deriving DecidableEq, Repr

namespace Reader

/-- No text. -/
def empty : Reader := ⟨[], [], 0, 0, rfl, rfl⟩

instance : Inhabited Reader := ⟨empty⟩

/-- The part that was read. -/
def consumed (reader : Reader) : List Char := reader.before.reverse

/-- The whole text. -/
def text (reader : Reader) : List Char := reader.consumed ++ reader.rest

/-- The number of bytes of the whole text. -/
def size (reader : Reader) : Nat := reader.cursor + reader.left

/-- Whether nothing is left to read. -/
def atEnd (reader : Reader) : Bool := reader.rest.isEmpty

/-- Adds text at the end. -/
def append (reader : Reader) (chunk : List Char) : Reader :=
  { reader with
    rest := reader.rest ++ chunk
    left := reader.left + byteLength chunk
    left_eq := by simp [reader.left_eq] }

/-- The reader after a text was read, where `rest` is what is left after it. -/
def after (reader : Reader) (text rest : List Char) (split : reader.rest = text ++ rest) :
    Reader where
  before := text.reverse ++ reader.before
  rest := rest
  cursor := byteLength text + reader.cursor
  left := reader.left - byteLength text
  cursor_eq := by simp [reader.cursor_eq]
  left_eq := by simp [reader.left_eq, split]

/-- Reads a number of bytes, or all that is left if that is less. The result has the text that
was read. There is none if the bytes end inside a character. -/
def advance? (reader : Reader) (count : Nat) : Option (List Char × Reader) :=
  match cut : splitBytes? (min count reader.left) reader.rest with
  | some (text, rest) => some (text, reader.after text rest (append_of_splitBytes? cut).symm)
  | none => none

/-- The text that was read since a byte offset, and nothing if the offset was not reached yet.
There is none if the offset is inside a character. -/
def since? (reader : Reader) (offset : Nat) : Option (List Char) :=
  (takeBytes? (reader.cursor - offset) reader.before).map List.reverse

end Reader

end GlobTree
