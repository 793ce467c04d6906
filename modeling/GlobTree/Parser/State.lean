import GlobTree.Nesting
import GlobTree.Parser.Error
import GlobTree.Parser.Options
import GlobTree.Rule
import GlobTree.Text.Reader
import GlobTree.Tree.Document
/-!
# The state of a parse

`ParseState` is a text that is being read together with the document that grows from it. The
operations on it are those that handlers have: `eat?` reads what a rule recognises, `push?` and
`append?` add nodes, `openGroup?` and `closeGroup?` start and end groups, and `report` notes a
problem.

An operation whose result is an `Option` has none where it would have to cut a text inside of a
character, or to use a node that is not there.
-/

namespace GlobTree

/-- A place that a handler remembers. -/
structure Mark where
  location : Location
  deriving DecidableEq, Repr, Inhabited

/-- A text that is being read and the document that grows from it. -/
structure ParseState (K : Type) where
  options : ParserOptions
  reader : Reader := .empty
  location : Location := .start
  nesting : Nesting K := {}
  arena : Arena K
  diagnostics : Array Diagnostic := #[]
  /-- The node that was added last. -/
  last : Option NodeId := none
  deriving DecidableEq, Repr

namespace ParseState

variable {K : Type}

/-- Nothing read and nothing to read. -/
def fresh (options : ParserOptions) : ParseState K where
  options := options
  arena := .empty options.sourceLabel

instance : Inhabited (ParseState K) := ⟨fresh {}⟩

/-! ## What handlers can see -/

/-- The label of the text. -/
def label (state : ParseState K) : String := state.options.sourceLabel

/-- The number of bytes that were read. -/
def cursor (state : ParseState K) : Nat := state.reader.cursor

/-- The text that is left to read. -/
def remaining (state : ParseState K) : List Char := state.reader.rest

/-- The text that was read. -/
def consumed (state : ParseState K) : List Char := state.reader.consumed

/-- The next character. -/
def peek? (state : ParseState K) : Option Char := state.reader.rest.head?

/-- Whether nothing is left to read. -/
def atEnd (state : ParseState K) : Bool := state.reader.atEnd

/-- Remembers the place. -/
def mark (state : ParseState K) : Mark := ⟨state.location⟩

/-- The innermost open group. -/
def currentGroup? (state : ParseState K) : Option NodeId := state.nesting.current?

/-- Whether a group of a kind is open. -/
def isInside [DecidableEq K] (state : ParseState K) (kind : K) : Bool :=
  state.nesting.isInside kind

/-- The document as far as it goes. -/
def document (state : ParseState K) : Document K where
  toArena := state.arena
  source := String.ofList state.reader.text
  label := state.label
  diagnostics := state.diagnostics

/-- An error at the place reached. -/
def error (state : ParseState K) (cause : ParseCause K) : ParseError K :=
  .at cause state.label state.location

/-! ## Reading -/

/-- Adds text to read. -/
def feed (state : ParseState K) (chunk : List Char) : ParseState K :=
  { state with reader := state.reader.append chunk }

/-- Reads a number of bytes, as far as there are that many. -/
def advance? (state : ParseState K) (count : Nat) : Option (ParseState K) :=
  (state.reader.advance? count).map fun (text, reader) =>
    { state with reader := reader, location := state.location.advance text }

/-- Reads what a rule recognises. Where the rule matched further on, as many bytes are read as it
matched there. -/
def eat? (state : ParseState K) (rule : Rule) : Option (Option RuleMatch × ParseState K) :=
  match rule.matchHead state.remaining with
  | none => some (none, state)
  | some found => (state.advance? found.size).map fun state => (some found, state)

/-! ## Nodes -/

/-- The moment reached. -/
def moment (state : ParseState K) : Moment := ⟨state.cursor, state.reader.size⟩

/-- A node for the text that was read since a mark. -/
def node? (state : ParseState K) (role : Role K) (start : Mark) : Option (Node K) :=
  (state.reader.since? start.location.offset).map fun raw =>
    { role := role
      raw := String.ofList raw
      span := ⟨start.location, state.location, state.label⟩
      made := some state.moment }

/-- Adds a node below a parent. -/
def appendTo? (state : ParseState K) (parent : NodeId) (node : Node K) :
    Option (NodeId × ParseState K) :=
  (state.arena.append? parent node).map fun (id, arena) =>
    (id, { state with arena := arena, last := some id })

/-- Adds a node to the innermost open group, or to the root. -/
def append? (state : ParseState K) (node : Node K) : Option (NodeId × ParseState K) :=
  state.appendTo? (state.currentGroup?.getD rootId) node

/-- Adds a token for the text that was read since a mark. -/
def push? (state : ParseState K) (kind : K) (start : Mark) : Option (NodeId × ParseState K) := do
  state.append? (← state.node? (.token kind) start)

/-- Starts a group whose opening token was read since a mark. The group takes up no text itself;
its first child is the opening token. -/
def openGroup? [DecidableEq K] (state : ParseState K) (kind : K) (start : Mark)
    (lead : Option String) : Option (NodeId × ParseState K) := do
  let group : Node K :=
    { role := .group kind
      raw := ""
      lead := lead
      span := .point start.location state.label
      made := some state.moment }
  let (id, state) ← state.append? group
  let (_, state) ← state.appendTo? id (← state.node? (.opening kind) start)
  return (id, { state with nesting := state.nesting.push kind id })

/-- Ends the innermost group, whose closing token was read since a mark. The group has to be of
the given kind; if it is not, nothing changes. -/
def closeGroup? [DecidableEq K] (state : ParseState K) (kind : K) (start : Mark)
    (trail : Option String) : Option (Except (ParseError K) NodeId × ParseState K) :=
  match state.nesting.pop kind with
  | .error mismatch => do
    let raw ← state.reader.since? start.location.offset
    let innermost :=
      match mismatch with
      | .nothingOpen => none
      | .interleaved innermost => some innermost
    let cause := .unbalancedClose kind (String.ofList raw) innermost
    return (.error (.at cause state.label start.location), state)
  | .ok (group, nesting) => do
    let state := { state with nesting := nesting }
    let node ← state.node? (.closing kind) start
    let (id, state) ← state.appendTo? group { node with trail := trail }
    return (.ok id, state)

/-! ## Problems -/

/-- Reports a problem at the place reached. It is noted in the document, or it is an error. -/
def report (state : ParseState K) (message : String) :
    Except (ParseError K) Unit × ParseState K :=
  match state.options.errorMode with
  | .collect =>
    let note : Diagnostic := ⟨message, state.location, state.label⟩
    (.ok (), { state with diagnostics := state.diagnostics.push note })
  | .throw => (.error (state.error (.diagnostic message)), state)

end ParseState

end GlobTree
