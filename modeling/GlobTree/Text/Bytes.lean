/-!
# Texts measured in bytes

Offsets and lengths count the bytes of the UTF-8 form, while the library works on characters. A
byte offset is good for cutting a text only if it falls between two characters.

* `byteLength cs` is the number of bytes of `cs`.
* `splitBytes? n cs` cuts `cs` after its first `n` bytes, if there are that many and they end a
  character.
* `dropBytes? n cs` and `takeBytes? n cs` are the two halves.
-/

namespace GlobTree

/-- The number of bytes of the UTF-8 form of a text. -/
def byteLength : List Char → Nat
  | [] => 0
  | c :: cs => c.utf8Size + byteLength cs

/-- The text cut after its first `n` bytes. There is no cut inside a character or past the end. -/
def splitBytes? : Nat → List Char → Option (List Char × List Char)
  | 0, cs => some ([], cs)
  | _ + 1, [] => none
  | n + 1, c :: cs =>
    if c.utf8Size ≤ n + 1 then
      (splitBytes? (n + 1 - c.utf8Size) cs).map fun (front, back) => (c :: front, back)
    else none

/-- The first `n` bytes of a text. -/
def takeBytes? (n : Nat) (cs : List Char) : Option (List Char) :=
  (splitBytes? n cs).map (·.1)

/-- A text without its first `n` bytes. -/
def dropBytes? (n : Nat) (cs : List Char) : Option (List Char) :=
  (splitBytes? n cs).map (·.2)

/-- The part of a text between two byte offsets. -/
def sliceBytes? (start stop : Nat) (cs : List Char) : Option (List Char) :=
  if start ≤ stop then (dropBytes? start cs).bind (takeBytes? (stop - start)) else none

@[simp]
theorem byteLength_nil : byteLength [] = 0 := rfl

@[simp]
theorem byteLength_cons (c : Char) (cs : List Char) :
    byteLength (c :: cs) = c.utf8Size + byteLength cs := rfl

@[simp]
theorem byteLength_append (as bs : List Char) :
    byteLength (as ++ bs) = byteLength as + byteLength bs := by
  induction as with
  | nil => simp
  | cons c cs ih => simp [ih, Nat.add_assoc]

@[simp]
theorem byteLength_reverse (cs : List Char) : byteLength cs.reverse = byteLength cs := by
  induction cs with
  | nil => rfl
  | cons c cs ih => simp [ih, Nat.add_comm]

/-- A cut loses nothing. -/
theorem append_of_splitBytes? {n : Nat} {cs front back : List Char}
    (cut : splitBytes? n cs = some (front, back)) : front ++ back = cs := by
  induction cs generalizing n front with
  | nil => cases n <;> simp_all [splitBytes?]
  | cons c cs ih =>
    cases n with
    | zero => simp_all [splitBytes?]
    | succ n =>
      simp only [splitBytes?] at cut
      split at cut
      · simp only [Option.map_eq_some_iff, Prod.mk.injEq] at cut
        obtain ⟨⟨front, back⟩, cut, rfl, rfl⟩ := cut
        simp [ih cut]
      · simp at cut

end GlobTree
