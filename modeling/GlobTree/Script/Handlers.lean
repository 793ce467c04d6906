import GlobTree.Parser.Basic
/-!
# Scripts for handlers

A script is a list of instructions that makes a handler without any code. `Script.program` is the
program of a script. It starts with a mark at the place reached and with no match; instructions
that read replace the match, and instructions that test end the script if the test fails.

Scripts share a `Notebook`, in which they keep marks under a name and note what they see.

They are one use of `Program`, for handlers that are given as data and not as code. The parser knows
nothing of them, and nothing that is said of parsers depends on them.
-/

namespace GlobTree

/-- What can be seen of the state of a parse at a moment. -/
structure StateView (K : Type) where
  location : Location
  /-- The number of bytes that were read. -/
  consumed : Nat
  remaining : String
  peek : Option Char
  atEnd : Bool
  group : Option NodeId
  last : Option NodeId
  lastRole : Option (Role K)
  innermost : Option (K × NodeId)
  depth : Nat
  nodes : Nat
  diagnostics : Nat
  deriving DecidableEq, Repr

/-- What can be seen of a state. -/
def ParseState.view {K : Type} (state : ParseState K) : StateView K where
  location := state.location
  consumed := state.cursor
  remaining := String.ofList state.remaining
  peek := state.peek?
  atEnd := state.atEnd
  group := state.currentGroup?
  last := state.last
  lastRole := state.last.bind fun id => (state.arena.node? id).map (·.role)
  innermost := state.nesting.innermost?
  depth := state.nesting.depth
  nodes := state.arena.size
  diagnostics := state.diagnostics.size

/-- What scripts remember. -/
structure Notebook (K : Type) where
  /-- Marks by name, the latest first. -/
  marks : List (String × Mark) := []
  /-- What was noted, the latest first. -/
  notes : List (StateView K) := []
  deriving Repr, Inhabited

/-- A text that goes with a token: one that is given, or what the latest match has for it. -/
inductive Attached
  | given (text : Option String)
  | fromMatch
  deriving DecidableEq, Repr

/-- One instruction of a script. -/
inductive Instruction (K : Type)
  /-- Go on if a group of the kind is open, or if none is. -/
  | ifInside (kind : K) (expected : Bool)
  /-- Go on if any group is open, or if none is. -/
  | ifGroup (expected : Bool)
  /-- Go on if the next character is one of these. -/
  | ifPeek (characters : List Char)
  /-- Read what the rule recognises. If it recognises nothing, go on only if it is optional. -/
  | eat (rule : Rule) (optional : Bool)
  /-- Add a token. -/
  | push (kind : K)
  /-- Start a group. -/
  | openGroup (kind : K) (lead : Attached)
  /-- End a group. -/
  | closeGroup (kind : K) (trail : Attached)
  /-- Report a problem. -/
  | report (message : String)
  /-- Add a node. -/
  | append (role : Role K) (lead trail : Option String)
  /-- Take the place reached for the mark. -/
  | mark
  /-- Keep the mark under a name. -/
  | save (name : String)
  /-- Take the mark of a name, if there is one. -/
  | load (name : String)
  /-- End the parse with an error at the mark. -/
  | fail (kind : ParseErrorKind) (message : String)
  /-- Note what can be seen. -/
  | note
  deriving Repr

namespace Attached

/-- The text, given what the latest match has for it. -/
def resolve : Attached → Option String → Option String
  | given text, _ => text
  | fromMatch, matched => matched

end Attached

namespace Script

variable {K : Type} [DecidableEq K]

/-- The program of a script, from a mark and a match on. -/
def programFrom (start : Mark) (found : Option RuleMatch) :
    List (Instruction K) → Program K (Notebook K) Unit
  | [] => .pure ()
  | .ifInside kind expected :: script => .look fun state =>
    if state.isInside kind = expected then programFrom start found script else .pure ()
  | .ifGroup expected :: script => .look fun state =>
    if state.currentGroup?.isSome = expected then programFrom start found script else .pure ()
  | .ifPeek characters :: script => .look fun state =>
    if state.peek?.any (· ∈ characters) then programFrom start found script else .pure ()
  | .eat rule optional :: script => .eat rule fun found =>
    if found.isSome || optional then programFrom start found script else .pure ()
  | .push kind :: script => (Program.push kind start).bind fun _ => programFrom start found script
  | .openGroup kind lead :: script =>
    .openGroup kind start (lead.resolve (found.bind (·.lead))) fun _ =>
      programFrom start found script
  | .closeGroup kind trail :: script =>
    (Program.close kind start (trail.resolve (found.bind (·.trail)))).bind fun _ =>
      programFrom start found script
  | .report message :: script =>
    (Program.complain message).bind fun _ => programFrom start found script
  | .append role lead trail :: script => (Program.node role start).bind fun node =>
    .append { node with lead := lead, trail := trail } fun _ => programFrom start found script
  | .mark :: script => .look fun state => programFrom state.mark found script
  | .save name :: script => .recall fun notebook =>
    .store { notebook with marks := (name, start) :: notebook.marks }
      (programFrom start found script)
  | .load name :: script => .recall fun notebook =>
    programFrom ((notebook.marks.lookup name).getD start) found script
  | .fail kind message :: _ => .look fun state =>
    .fail (.at (.raised kind message) state.label start.location)
  | .note :: script => .look fun state => .recall fun notebook =>
    .store { notebook with notes := state.view :: notebook.notes }
      (programFrom start found script)

/-- The program of a script. -/
def program (script : List (Instruction K)) : Program K (Notebook K) Unit :=
  .look fun state => programFrom state.mark none script

end Script

end GlobTree
