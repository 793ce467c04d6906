import GlobTree.Regex.CharClass
/-!
# Regular expressions as written

`Pattern` is a regular expression after its text has been understood: flags, escapes and brackets
are resolved, and only the structure is left. A text that is no regular expression is refused with
a `SyntaxError`.

How deep the text is nested is not left in the pattern: groups without a number are gone, and the
brackets of a class. `depthOfParts` is used to count it while the text is read.
-/

namespace GlobTree

/-- Where a place can be with regard to the words of a text. -/
inductive WordEdge
  /-- At one of the two ends of a word. -/
  | either
  | neither
  | start
  | stop
  /-- Not after a character of a word. -/
  | startHalf
  /-- Not before a character of a word. -/
  | stopHalf
  deriving DecidableEq, Repr, Inhabited

/-- Conditions on a place that read nothing. -/
inductive Assertion
  | textStart
  | textEnd
  | lineStart
  | lineEnd
  /-- The start of a line, where lines end with a carriage return, a line feed or both. -/
  | lineStartAny
  /-- The end of such a line. -/
  | lineEndAny
  /-- A place with regard to the words that have the given characters. -/
  | word (edge : WordEdge) (members : CharClass)
  deriving DecidableEq, Repr, Inhabited

/-- A regular expression as written. -/
inductive Pattern
  | empty
  /-- One character of a class. -/
  | one (members : CharClass)
  | assert (condition : Assertion)
  | seq (a b : Pattern)
  /-- `a`, or else `b`. -/
  | alt (a b : Pattern)
  /-- A capturing group with its number. -/
  | group (index : Nat) (a : Pattern)
  /-- At least `least` and at most `most` copies, as many as possible if `greedy`, as few as
  possible if not. -/
  | times (least : Nat) (most : Option Nat) (greedy : Bool) (a : Pattern)
  deriving DecidableEq, Repr, Inhabited

namespace Pattern

/-- The patterns one after the other. -/
def seqs : List Pattern → Pattern
  | [] => .empty
  | [p] => p
  | p :: ps => .seq p (seqs ps)

/-- The first pattern, or else the second, and so on. -/
def alts : List Pattern → Pattern
  | [] => .empty
  | [p] => p
  | p :: ps => .alt p (alts ps)

end Pattern

/-- How deep a whole is nested whose parts are nested as deep as given. Two parts or more are put
together at a level of their own. -/
def depthOfParts (depths : List Nat) : Nat :=
  depths.foldr max 0 + if depths.length < 2 then 0 else 1

@[simp]
theorem depthOfParts_singleton (depth : Nat) : depthOfParts [depth] = depth := by
  simp [depthOfParts]

theorem depthOfParts_le {depths : List Nat} {bound : Nat} (h : ∀ depth ∈ depths, depth ≤ bound) :
    depthOfParts depths ≤ bound + 1 := by
  have hmax : depths.foldr max 0 ≤ bound := by
    induction depths with
    | nil => exact Nat.zero_le _
    | cons depth depths ih =>
      rw [List.forall_mem_cons] at h
      exact Nat.max_le.2 ⟨h.1, ih h.2⟩
  rw [depthOfParts]
  split <;> omega

/-- Why a text is no regular expression. -/
inductive SyntaxError
  | groupUnclosed
  | groupUnopened
  | groupNameEmpty
  | groupNameInvalid
  | groupNameRepeated
  | groupNameUnclosed
  | lookaround
  | flagUnknown
  | flagRepeated
  | flagNegationRepeated
  | flagNegationDangling
  | flagsUnclosed
  | repetitionMissing
  | countUnclosed
  | countEmpty
  | countTooLarge
  | countReversed
  | bracketUnclosed
  | bracketRangeReversed
  | bracketRangeOfClass
  | bracketAssertion
  | escapeAtEnd
  | escapeUnknown
  | backreference
  | hexEmpty
  | hexDigitInvalid
  | hexNoCharacter
  | propertyInvalid
  | propertyUnknown
  | wordEdgeUnclosed
  | wordEdgeUnknown
  /-- A part that needs the characters of all scripts, where there are only those of ASCII. -/
  | unicodeNeeded
  /-- A part that could match a piece of a character. -/
  | characterSplit
  | nestedTooDeep
  | compiledTooLarge
  /-- The reader stopped before the end of the text. Every step reads a character, so that there
  is no such text. -/
  | textLeft
  deriving DecidableEq, Repr, Inhabited

/-- The flags that a regular expression can set. -/
structure PatternFlags where
  ignoreCase : Bool := false
  multiLine : Bool := false
  dotMatchesNewline : Bool := false
  swapGreed : Bool := false
  ignoreSpace : Bool := false
  /-- Classes and cases are those of all scripts, and not those of ASCII only. -/
  unicode : Bool := true
  /-- Lines may also end with a carriage return. -/
  returnEndsLine : Bool := false
  deriving DecidableEq, Repr, Inhabited

end GlobTree
