import GlobTree.Regex.Pattern
/-!
# Regular expressions for matching

`Regex` is the form of a regular expression that texts are matched against. Counted repetitions
are written out, so that only two kinds of loop are left, and whatever reads a character or chooses
between two ways to go on, an alternation or a loop, has a label of its own.

A loop whose body always reads something comes to its choice before the first copy. If the body
may read nothing, that choice would be spent on going round once without reading. "Any number"
of such a body is therefore the choice between nothing and "once or more often".

* `Pattern.compile` takes a pattern to its regular expression.
* `Regex.groupCount` is the number of capturing groups that are left. A group that is repeated
  exactly zero times is not.
-/

namespace GlobTree

/-- A regular expression with counted repetitions written out. -/
inductive Regex
  | empty
  /-- One character of a class. -/
  | one (label : Nat) (members : CharClass)
  | assert (condition : Assertion)
  | seq (a b : Regex)
  /-- `a`, or else `b`. -/
  | alt (label : Nat) (a b : Regex)
  | group (index : Nat) (a : Regex)
  /-- Any number of times, as often as possible if `greedy`, as seldom as possible if not. -/
  | star (label : Nat) (greedy : Bool) (a : Regex)
  /-- Once or more often, as often as possible if `greedy`, as seldom as possible if not. -/
  | plus (label : Nat) (greedy : Bool) (a : Regex)
  deriving DecidableEq, Repr, Inhabited

namespace Regex

/-- An expression that may be left out, taken by preference if `greedy`. -/
def opt (label : Nat) (greedy : Bool) (a : Regex) : Regex :=
  if greedy then .alt label a .empty else .alt label .empty a

/-- The greatest number of a capturing group. -/
def groupCount : Regex → Nat
  | empty | one .. | assert _ => 0
  | seq a b | alt _ a b => max a.groupCount b.groupCount
  | group index a => max index a.groupCount
  | star _ _ a | plus _ _ a => a.groupCount

/-- Whether an expression can match without reading, if its assertions hold. -/
def mayReadNothing : Regex → Bool
  | empty | assert _ | star .. => true
  | one .. => false
  | seq a b => a.mayReadNothing && b.mayReadNothing
  | alt _ a b => a.mayReadNothing || b.mayReadNothing
  | group _ a | plus _ _ a => a.mayReadNothing

end Regex

/-- What compiling needs to know: the next label that is free. The result has the label that is
free after it. -/
abbrev Compile := Nat → Regex × Nat

namespace Compile

/-- `count` copies one after the other, each with labels of its own. -/
def copies (body : Compile) : Nat → Compile
  | 0, label => (.empty, label)
  | n + 1, label =>
    let (first, label) := body label
    let (others, label) := copies body n label
    (.seq first others, label)

/-- At most `count` copies. Each stands inside of the choice to take the one before it. -/
def upTo (body : Compile) (greedy : Bool) : Nat → Compile
  | 0, label => (.empty, label)
  | n + 1, label =>
    let (first, next) := body (label + 1)
    let (others, next) := upTo body greedy n next
    (.opt label greedy (.seq first others), next)

/-- One copy or more. -/
def oneOrMore (body : Compile) (greedy : Bool) : Compile := fun label =>
  let (a, next) := body (label + 1)
  (.plus label greedy a, next)

/-- Any number of copies. -/
def anyNumber (body : Compile) (greedy : Bool) : Compile := fun label =>
  let (a, next) := body (label + 1)
  if a.mayReadNothing then (.opt label greedy (.plus next greedy a), next + 1)
  else (.star label greedy a, next)

/-- One expression after the other. -/
def andThen (first second : Compile) : Compile := fun label =>
  let (a, label) := first label
  let (b, label) := second label
  (.seq a b, label)

/-- A repetition. -/
def times (body : Compile) (least : Nat) (most : Option Nat) (greedy : Bool) : Compile :=
  match least, most with
  | 0, none => anyNumber body greedy
  | n + 1, none => andThen (copies body n) (oneOrMore body greedy)
  | least, some most => andThen (copies body least) (upTo body greedy (most - least))

end Compile

namespace Pattern

/-- The regular expression of a pattern, with labels from the given one on. -/
def compileFrom : Pattern → Compile
  | empty, label => (.empty, label)
  | one members, label => (.one label members, label + 1)
  | assert condition, label => (.assert condition, label)
  | seq a b, label => Compile.andThen a.compileFrom b.compileFrom label
  | alt a b, label =>
    let (first, next) := a.compileFrom (label + 1)
    let (second, next) := b.compileFrom next
    (.alt label first second, next)
  | group index a, label =>
    let (inner, label) := a.compileFrom label
    (.group index inner, label)
  | times least most greedy a, label => Compile.times a.compileFrom least most greedy label

/-- The regular expression of a pattern. -/
def compile (p : Pattern) : Regex :=
  (p.compileFrom 0).1

end Pattern

end GlobTree
