import GlobTree.Parser.Program
/-!
# Parsers

A `Parser` has a table of handlers. On every turn the handlers are tried in order until one of them
moves the cursor; a turn in which none does is an error, so that every turn reads something.

* `Parser.feed` adds text and reads all of it.
* `Parser.finish` ends the document and hands it over; `Parser.parse` does both.
* After an error a parser is poisoned, and refuses all further work until `Parser.reset`.
-/

namespace GlobTree

/-- How a piece of text is dealt with. -/
inductive Handler (K M : Type)
  /-- What the rule recognises is a token. -/
  | capture (kind : K) (rule : Rule)
  /-- What the rule recognises opens a group. -/
  | opening (kind : K) (rule : Rule)
  /-- What the rule recognises closes a group. -/
  | closing (kind : K) (rule : Rule)
  /-- A program decides. -/
  | middleware (program : Program K M Unit)

/-- What a handler does on its turn. -/
def Handler.program {K M : Type} : Handler K M → Program K M Unit
  | .capture kind rule =>
    Program.mark.bind fun start => .eat rule fun found =>
      match found with
      | some _ => (Program.push kind start).bind fun _ => .pure ()
      | none => .pure ()
  | .opening kind rule =>
    Program.mark.bind fun start => .eat rule fun found =>
      match found with
      | some found => .openGroup kind start found.lead fun _ => .pure ()
      | none => .pure ()
  | .closing kind rule =>
    Program.mark.bind fun start => .eat rule fun found =>
      match found with
      | some found => (Program.close kind start found.trail).bind fun _ => .pure ()
      | none => .pure ()
  | .middleware program => program

/-- A table of handlers with a parse under way. -/
structure Parser (K M : Type) where
  handlers : Array (Handler K M) := #[]
  state : ParseState K
  memory : M
  /-- Whether the parser failed since it was made or reset. -/
  poisoned : Bool := false

namespace Parser

variable {K M : Type}

/-- A parser without handlers. -/
def new (options : ParserOptions) (memory : M) : Parser K M where
  state := .fresh options
  memory := memory

/-! ## The table -/

/-- Adds a handler at the end of the table. -/
def register (parser : Parser K M) (handler : Handler K M) : Parser K M :=
  { parser with handlers := parser.handlers.push handler }

/-- Adds a handler for tokens of a kind. -/
def registerCapture (parser : Parser K M) (kind : K) (rule : Rule) : Parser K M :=
  parser.register (.capture kind rule)

/-- Adds two handlers, for the opening and the closing tokens of a kind of group. -/
def registerPair (parser : Parser K M) (kind : K) (opening closing : Rule) : Parser K M :=
  (parser.register (.opening kind opening)).register (.closing kind closing)

/-- Adds a handler that is a program. -/
def registerMiddleware (parser : Parser K M) (program : Program K M Unit) : Parser K M :=
  parser.register (.middleware program)

/-- The number of handlers. -/
def handlerCount (parser : Parser K M) : Nat := parser.handlers.size

/-! ## Turns -/

/-- Tries handlers in order until one has moved the cursor away from `start`. The result is
whether one has. -/
def turn [DecidableEq K] (start : Nat) :
    List (Handler K M) → ParseState K → M → Outcome K M Bool
  | [], state, memory => ⟨.ok false, state, memory⟩
  | handler :: handlers, state, memory =>
    match handler.program.run state memory with
    | ⟨.ok (), state, memory⟩ =>
      if state.cursor > start then ⟨.ok true, state, memory⟩
      else turn start handlers state memory
    | ⟨.error stop, state, memory⟩ => ⟨.error stop, state, memory⟩

/-- Takes turns until all text is read. The number bounds the turns; since every turn reads at
least one byte, the number of bytes is bound enough. -/
def turns [DecidableEq K] (handlers : List (Handler K M)) :
    Nat → ParseState K → M → Outcome K M Unit
  | 0, state, memory => ⟨.ok (), state, memory⟩
  | n + 1, state, memory =>
    if state.atEnd then ⟨.ok (), state, memory⟩
    else
      match turn state.cursor handlers state memory with
      | ⟨.ok true, state, memory⟩ => turns handlers n state memory
      | ⟨.ok false, state, memory⟩ =>
        let next := state.peek?.getD '\x00'
        ⟨.error (.failed (state.error (.noHandler next))), state, memory⟩
      | ⟨.error stop, state, memory⟩ => ⟨.error stop, state, memory⟩

/-! ## Work -/

/-- Does a piece of work unless the parser is poisoned. An error poisons it. -/
def guard {α : Type} (parser : Parser K M) (work : ParseState K → M → Outcome K M α) :
    Except (ParseStop K) α × Parser K M :=
  if parser.poisoned then (.error (.failed (parser.state.error .poisoned)), parser)
  else
    let ⟨result, state, memory⟩ := work parser.state parser.memory
    let poisoned :=
      match result with
      | .error (.failed _) => true
      | _ => false
    (result, { parser with state := state, memory := memory, poisoned := poisoned })

/-- Adds text and reads all of it. -/
def feed [DecidableEq K] (parser : Parser K M) (chunk : String) :
    Except (ParseStop K) Unit × Parser K M :=
  parser.guard fun state memory =>
    let state := state.feed chunk.toList
    turns parser.handlers.toList state.reader.left state memory

/-- The end of a document: in strict mode no group may be open, and then the end is marked below
the root. -/
def finishState (state : ParseState K) : Except (ParseStop K) (Document K) :=
  let finished : Except (ParseStop K) (Document K) :=
    let eos : Node K :=
      { role := .eos
        raw := ""
        span := .point state.location state.label
        made := some state.moment }
    match state.arena.append? rootId eos with
    | some (_, arena) => .ok { state.document with toArena := arena }
    | none => .error .outOfBounds
  match state.options.strict, state.nesting.innermost? with
  | true, some (kind, group) =>
    match state.arena.node? group with
    | some node => .error (.failed (.at (.unterminated kind) state.label node.span.start))
    | none => .error .outOfBounds
  | _, _ => finished

/-- Ends the document and hands it over. The parser is then ready for the next one. -/
def finish (parser : Parser K M) : Except (ParseStop K) (Document K) × Parser K M :=
  parser.guard fun state memory =>
    match finishState state with
    | .ok document => ⟨.ok document, .fresh state.options, memory⟩
    | .error stop => ⟨.error stop, state, memory⟩

/-- Reads a text to its end and hands over the document. Text that was fed before is part of
it. -/
def parse [DecidableEq K] (parser : Parser K M) (text : String) :
    Except (ParseStop K) (Document K) × Parser K M :=
  match parser.feed text with
  | (.ok (), parser) => parser.finish
  | (.error stop, parser) => (.error stop, parser)

/-- Gives up the parse under way. The handlers and their memory stay. -/
def reset (parser : Parser K M) : Parser K M :=
  { parser with state := .fresh parser.state.options, poisoned := false }

end Parser

end GlobTree
