import GlobTree.Regex.Basic
import Std.Data.TreeSet
/-!
# Ways through a regular expression at one place

At a place of a text, there may be many ways to go on with an expression. Each of them leads to a
character that has to be read next (`Thread`), or to the end of the expression. A `Frontier` is
what the ways that have been tried so far have led to. Ways are tried in order of preference: the
first alternative before the second, and another copy before the end of a loop if the loop is
greedy.

* `Regex.enter` tries all ways through an expression, `resume` all ways through what is left to do
  for a thread after it has read its character.
* At one place nothing that has a label is visited twice: whatever can be reached from there has
  been reached by a way that is preferred. This keeps empty copies from going round in circles, and
  it bounds the work at a place by the size of the expression.
* Nothing is visited any more after a way has led to the end: other ways are not preferred to it.
-/

namespace GlobTree

/-- A place in a text. -/
structure Place where
  /-- The text before the place, the nearest character first. -/
  before : List Char
  /-- The text from the place on. -/
  rest : List Char
  /-- The number of characters before the place. -/
  count : Nat
  deriving DecidableEq, Repr, Inhabited

/-- Whether a place is where an edge says, given whether there are characters of a word before and
after it. -/
def WordEdge.holds (edge : WordEdge) (before after : Bool) : Bool :=
  match edge with
  | either => before != after
  | neither => before == after
  | start => !before && after
  | stop => before && !after
  | startHalf => !before
  | stopHalf => !after

/-- Whether a condition holds at a place. Between a carriage return and a line feed, no line starts
or ends. -/
def Assertion.holds (condition : Assertion) (place : Place) : Bool :=
  match condition with
  | textStart => place.before.isEmpty
  | textEnd => place.rest.isEmpty
  | lineStart => place.before.isEmpty || place.before.head? == some '\n'
  | lineEnd => place.rest.isEmpty || place.rest.head? == some '\n'
  | lineStartAny =>
    place.before.isEmpty || place.before.head? == some '\n' ||
      place.before.head? == some '\r' && place.rest.head? != some '\n'
  | lineEndAny =>
    place.rest.isEmpty || place.rest.head? == some '\r' ||
      place.rest.head? == some '\n' && place.before.head? != some '\r'
  | word edge members =>
    edge.holds (place.before.head?.any members.contains) (place.rest.head?.any members.contains)

/-- A part of a text, by the number of characters before its two ends. -/
structure Stretch where
  start : Nat
  stop : Nat
  deriving DecidableEq, Repr, Inhabited

/-- The characters of a stretch. -/
def Stretch.of (stretch : Stretch) (text : List Char) : List Char :=
  (text.drop stretch.start).take (stretch.stop - stretch.start)

/-- What a way has behind it. -/
structure History where
  /-- Where it started. -/
  start : Nat
  /-- What groups have captured, the latest first. -/
  captures : List (Nat × Stretch) := []
  deriving DecidableEq, Repr, Inhabited

/-- Remembers what a group captured. -/
def History.capture (history : History) (index : Nat) (stretch : Stretch) : History :=
  { history with captures := (index, stretch) :: history.captures }

/-- Something left to do. -/
inductive Frame
  /-- To go through an expression. -/
  | enter (a : Regex)
  /-- To close a group that started at a place. -/
  | close (index start : Nat)
  deriving DecidableEq, Repr, Inhabited

/-- A way that goes on if the next character is of a class. -/
structure Thread where
  members : CharClass
  /-- What is left to do after that. -/
  frames : List Frame
  history : History
  deriving DecidableEq, Repr, Inhabited

/-- What the ways that have been tried at a place have led to. -/
structure Frontier where
  /-- The threads, the least preferred first. -/
  threads : List Thread := []
  /-- What has got to the end. All threads are preferred to it. -/
  ended : Option History := none
  /-- The labels that have been visited. -/
  visited : Std.TreeSet Nat := ∅
  deriving Inhabited

namespace Frontier

/-- Whether there is nothing new to be found at a label. -/
def isClosed (frontier : Frontier) (label : Nat) : Bool :=
  frontier.ended.isSome || frontier.visited.contains label

/-- Tries the ways from a label on, if there is anything new to be found. -/
def visit (frontier : Frontier) (label : Nat) (ways : Frontier → Frontier) : Frontier :=
  if frontier.isClosed label then frontier
  else ways { frontier with visited := frontier.visited.insert label }

/-- Adds a thread. -/
def push (frontier : Frontier) (thread : Thread) : Frontier :=
  { frontier with threads := thread :: frontier.threads }

/-- Comes to the end, unless another way has. -/
def finish (frontier : Frontier) (history : History) : Frontier :=
  { frontier with ended := frontier.ended.or (some history) }

end Frontier

/-- Goes on with a way. -/
abbrev GoOn := History → Frontier → Frontier

/-- Tries all ways through an expression at a place. After it, `frames` is left to do, and `goOn`
does it at the same place. -/
def Regex.enter (place : Place) : Regex → (frames : List Frame) → (goOn : GoOn) → GoOn
  | empty, _, goOn, history, frontier => goOn history frontier
  | one label members, frames, _, history, frontier =>
    frontier.visit label (·.push ⟨members, frames, history⟩)
  | assert condition, _, goOn, history, frontier =>
    if condition.holds place then goOn history frontier else frontier
  | seq a b, frames, goOn, history, frontier =>
    a.enter place (.enter b :: frames) (b.enter place frames goOn) history frontier
  | alt label a b, frames, goOn, history, frontier =>
    frontier.visit label fun frontier =>
      b.enter place frames goOn history (a.enter place frames goOn history frontier)
  | group index a, frames, goOn, history, frontier =>
    let close (history : History) := history.capture index ⟨place.count, place.count⟩
    a.enter place (.close index place.count :: frames) (goOn ∘ close) history frontier
  | star label greedy a, frames, goOn, history, frontier =>
    frontier.visit label fun frontier =>
      let copy := a.enter place (.enter (.star label greedy a) :: frames) fun _ => id
      if greedy then goOn history (copy history frontier)
      else copy history (goOn history frontier)
  | plus label greedy a, frames, goOn, history, frontier =>
    a.enter place (.enter (.star label greedy a) :: frames)
      (fun history frontier => frontier.visit label (goOn history)) history frontier

/-- Tries all ways through what is left to do. -/
def resume (place : Place) : List Frame → GoOn
  | [], history, frontier => frontier.finish history
  | .enter a :: frames, history, frontier =>
    a.enter place frames (resume place frames) history frontier
  | .close index start :: frames, history, frontier =>
    resume place frames (history.capture index ⟨start, place.count⟩) frontier

end GlobTree
