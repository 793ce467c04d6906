import GlobTree.Parser.State
/-!
# Programs of handlers

A handler is a program that looks at the state of a parse and works on it, step by step. What it
does next may depend on all that it has seen. `Program K M α` has one constructor for each thing
that a program can do, and `Program.run` does it.

A program ends with a value, with an error that ends the parse, or by reaching out of bounds, where
it would cut a text inside of a character or use a node that is not there. Two operations can fail,
`closeGroup` and `report`; a program may go on after that.

`M` is the type of a memory of the handlers' own. It is not part of the state and outlives it.
-/

namespace GlobTree

/-- What a handler does. -/
inductive Program (K M α : Type) where
  /-- Ends with a value. -/
  | pure (value : α)
  /-- Ends the parse with an error. -/
  | fail (error : ParseError K)
  /-- Reaches out of bounds. -/
  | outOfBounds
  /-- Looks at the state. -/
  | look (next : ParseState K → Program K M α)
  /-- Reads what a rule recognises. -/
  | eat (rule : Rule) (next : Option RuleMatch → Program K M α)
  /-- Adds a node to the innermost open group, or to the root. -/
  | append (node : Node K) (next : NodeId → Program K M α)
  /-- Starts a group. -/
  | openGroup (kind : K) (start : Mark) (lead : Option String) (next : NodeId → Program K M α)
  /-- Ends a group. -/
  | closeGroup (kind : K) (start : Mark) (trail : Option String)
      (next : Except (ParseError K) NodeId → Program K M α)
  /-- Reports a problem. -/
  | report (message : String) (next : Except (ParseError K) Unit → Program K M α)
  /-- Looks into the memory. -/
  | recall (next : M → Program K M α)
  /-- Replaces the memory. -/
  | store (memory : M) (next : Program K M α)

/-- Why a parse stopped. -/
inductive ParseStop (K : Type)
  /-- With an error. -/
  | failed (error : ParseError K)
  /-- By reaching out of bounds. -/
  | outOfBounds
  deriving DecidableEq, Repr

/-- The result of a parser's work, with the state and the memory that it leaves. -/
structure Outcome (K M α : Type) where
  result : Except (ParseStop K) α
  state : ParseState K
  memory : M

namespace Program

variable {K M α β : Type}

/-- Runs one program after the other. -/
def bind : Program K M α → (α → Program K M β) → Program K M β
  | .pure value, then_ => then_ value
  | .fail error, _ => .fail error
  | .outOfBounds, _ => .outOfBounds
  | .look next, then_ => .look fun state => (next state).bind then_
  | .eat rule next, then_ => .eat rule fun found => (next found).bind then_
  | .append node next, then_ => .append node fun id => (next id).bind then_
  | .openGroup kind start lead next, then_ =>
    .openGroup kind start lead fun id => (next id).bind then_
  | .closeGroup kind start trail next, then_ =>
    .closeGroup kind start trail fun result => (next result).bind then_
  | .report message next, then_ => .report message fun result => (next result).bind then_
  | .recall next, then_ => .recall fun memory => (next memory).bind then_
  | .store memory next, then_ => .store memory (next.bind then_)

instance : Monad (Program K M) where
  pure := .pure
  bind := .bind

/-! ## Single steps -/

/-- The state. -/
def state : Program K M (ParseState K) := .look .pure

/-- The place reached. -/
def mark : Program K M Mark := .look fun state => .pure state.mark

/-- Reads what a rule recognises. -/
def tryEat (rule : Rule) : Program K M (Option RuleMatch) := .eat rule .pure

/-- The value, or the error that ends the parse. -/
def ofExcept : Except (ParseError K) α → Program K M α
  | .ok value => .pure value
  | .error error => .fail error

/-- The value that has to be there. -/
def ofOption : Option α → Program K M α
  | some value => .pure value
  | none => .outOfBounds

/-- A node for the text that was read since a mark. -/
def node (role : Role K) (start : Mark) : Program K M (Node K) :=
  .look fun state => ofOption (state.node? role start)

/-- Adds a token for the text that was read since a mark. -/
def push (kind : K) (start : Mark) : Program K M NodeId :=
  (node (.token kind) start).bind fun node => .append node .pure

/-- Ends a group, or the parse if it cannot be ended. -/
def close (kind : K) (start : Mark) (trail : Option String) : Program K M NodeId :=
  .closeGroup kind start trail ofExcept

/-- Reports a problem, which ends the parse if it is an error. -/
def complain (message : String) : Program K M Unit :=
  .report message ofExcept

/-! ## Running -/

/-- Does what a program says. -/
def run [DecidableEq K] : Program K M α → ParseState K → M → Outcome K M α
  | .pure value, state, memory => ⟨.ok value, state, memory⟩
  | .fail error, state, memory => ⟨.error (.failed error), state, memory⟩
  | .outOfBounds, state, memory => ⟨.error .outOfBounds, state, memory⟩
  | .look next, state, memory => (next state).run state memory
  | .eat rule next, state, memory =>
    match state.eat? rule with
    | some (found, state) => (next found).run state memory
    | none => ⟨.error .outOfBounds, state, memory⟩
  | .append node next, state, memory =>
    match state.append? node with
    | some (id, state) => (next id).run state memory
    | none => ⟨.error .outOfBounds, state, memory⟩
  | .openGroup kind start lead next, state, memory =>
    match state.openGroup? kind start lead with
    | some (id, state) => (next id).run state memory
    | none => ⟨.error .outOfBounds, state, memory⟩
  | .closeGroup kind start trail next, state, memory =>
    match state.closeGroup? kind start trail with
    | some (result, state) => (next result).run state memory
    | none => ⟨.error .outOfBounds, state, memory⟩
  | .report message next, state, memory =>
    let (result, state) := state.report message
    (next result).run state memory
  | .recall next, state, memory => (next memory).run state memory
  | .store memory next, state, _ => next.run state memory

end Program

end GlobTree
