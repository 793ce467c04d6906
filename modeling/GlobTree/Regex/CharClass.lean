import GlobTree.Regex.Folding
import GlobTree.Regex.Words
/-!
# Classes of characters

A regular expression reads one character at a time, and every place that reads one names a class
of characters. A class is built from single characters and ranges by the operations of bracket
expressions, and `CharClass.contains` says which characters belong to it.
-/

namespace GlobTree

/-- A set of characters as written in a regular expression. -/
inductive CharClass
  | nothing
  | single (c : Char)
  | range (first last : Char)
  /-- The decimal digits of all scripts. -/
  | digits
  /-- The characters of words of all scripts. -/
  | words
  | union (a b : CharClass)
  | inter (a b : CharClass)
  | diff (a b : CharClass)
  | compl (a : CharClass)
  /-- The characters that are in the class if case is ignored. -/
  | folded (a : CharClass)
  deriving DecidableEq, Repr, Inhabited

namespace CharClass

/-- Membership in a class. -/
def contains : CharClass → Char → Bool
  | nothing, _ => false
  | single d, c => c == d
  | range first last, c => first ≤ c && c ≤ last
  | digits, c => isDecimalDigit c
  | words, c => isWordChar c
  | union a b, c => a.contains c || b.contains c
  | inter a b, c => a.contains c && b.contains c
  | diff a b, c => a.contains c && !b.contains c
  | compl a, c => !a.contains c
  | folded a, c => (caseVariants c).any a.contains

/-- The characters of one class or the other, but not of both. -/
def symmDiff (a b : CharClass) : CharClass :=
  .union (.diff a b) (.diff b a)

/-- The characters of some of the classes. -/
def unions (classes : List CharClass) : CharClass :=
  classes.foldr .union .nothing

/-- The complement, if there is one to take. -/
def complIf (negated : Bool) (a : CharClass) : CharClass :=
  if negated then .compl a else a

/-- The class without regard to case, if case is to be ignored. -/
def foldedIf (ignoreCase : Bool) (a : CharClass) : CharClass :=
  if ignoreCase then .folded a else a

/-- Every character. -/
def any : CharClass := .compl .nothing

/-- Every character but the line feed. -/
def notNewline : CharClass := .compl (.single '\n')

/-- Every character but the two that lines end with. -/
def notLineEnd : CharClass := .compl (.unions [.single '\r', .single '\n'])

/-- The white space of all scripts. -/
def blanks : CharClass :=
  .unions (blankRanges.map fun (first, last) => .range (Char.ofNat first) (Char.ofNat last))

/-! ### ASCII -/

/-- The characters of ASCII. -/
def ascii : CharClass := .range '\x00' '\x7f'

/-- The decimal digits of ASCII. -/
def asciiDigits : CharClass := .range '0' '9'

/-- The white space of ASCII. -/
def asciiBlanks : CharClass := .unions [.range '\t' '\r', .single ' ']

/-- The characters of words of ASCII. -/
def asciiWords : CharClass :=
  .unions [.range '0' '9', .range 'A' 'Z', .single '_', .range 'a' 'z']

/-- The classes with a name, written `[:name:]` inside a bracket expression. All are ASCII. -/
def named? : String → Option CharClass
  | "alnum" => some (.unions [.range '0' '9', .range 'A' 'Z', .range 'a' 'z'])
  | "alpha" => some (.unions [.range 'A' 'Z', .range 'a' 'z'])
  | "ascii" => some .ascii
  | "blank" => some (.unions [.single '\t', .single ' '])
  | "cntrl" => some (.unions [.range '\x00' '\x1f', .single '\x7f'])
  | "digit" => some .asciiDigits
  | "graph" => some (.range '!' '~')
  | "lower" => some (.range 'a' 'z')
  | "print" => some (.range ' ' '~')
  | "punct" =>
    some (.unions [.range '!' '/', .range ':' '@', .range '[' (Char.ofNat 0x60),
      .range '\x7b' '~'])
  | "space" => some .asciiBlanks
  | "upper" => some (.range 'A' 'Z')
  | "word" => some .asciiWords
  | "xdigit" => some (.unions [.range '0' '9', .range 'A' 'F', .range 'a' 'f'])
  | _ => none

@[simp]
theorem contains_single (d c : Char) : (single d).contains c = (c == d) := rfl

@[simp]
theorem contains_union (a b : CharClass) (c : Char) :
    (union a b).contains c = (a.contains c || b.contains c) := rfl

@[simp]
theorem contains_compl (a : CharClass) (c : Char) : (compl a).contains c = !a.contains c := rfl

theorem contains_unions (classes : List CharClass) (c : Char) :
    (unions classes).contains c = classes.any (·.contains c) := by
  induction classes with
  | nil => rfl
  | cons a as ih => simpa [unions] using congrArg (a.contains c || ·) ih

end CharClass

end GlobTree
