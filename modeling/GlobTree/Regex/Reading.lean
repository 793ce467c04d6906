import GlobTree.Regex.Bracket
/-!
# Reading regular expressions

`Pattern.read` turns a text into a `Pattern`. The reader goes through the text once, one construct
a step, and keeps the groups that are still open on a stack (`Reading`). A group restores the flags
of the text around it when it closes.

The last thing that was read stands apart in `Branch.last`, because a repetition sign applies to
it. Where there is nothing for a sign to apply to, as at the start of a group or after flags, it
is `none`.
-/

namespace GlobTree

/-- The alternation that is being read. All lists have the latest entry first. -/
structure Branch where
  /-- The alternatives that are complete. -/
  complete : List Pattern := []
  /-- The items of the last alternative, without the one that a repetition would apply to. -/
  items : List Pattern := []
  last : Option Pattern := none
  /-- How deep the complete alternatives are nested. -/
  completeDepths : List Nat := []
  /-- How deep the items of the last alternative are nested, flags among them. -/
  depths : List Nat := []
  deriving Repr, Inhabited

namespace Branch

/-- The items of the alternative that is being read. -/
def allItems (branch : Branch) : List Pattern :=
  branch.last.toList ++ branch.items

/-- Adds an item. -/
def add (branch : Branch) (item : Pattern) (depth : Nat := 0) : Branch :=
  { branch with items := branch.allItems, last := some item, depths := depth :: branch.depths }

/-- Leaves nothing for a repetition to apply to, after flags. -/
def settle (branch : Branch) : Branch :=
  { branch with items := branch.allItems, last := none, depths := 0 :: branch.depths }

/-- The alternative that is being read, as far as it goes. -/
def alternative (branch : Branch) : Pattern :=
  .seqs branch.allItems.reverse

/-- How deep the alternatives are nested. -/
def allDepths (branch : Branch) : List Nat :=
  depthOfParts branch.depths :: branch.completeDepths

/-- How deep the alternation is nested. -/
def depth (branch : Branch) : Nat :=
  depthOfParts branch.allDepths

/-- Starts the next alternative. -/
def next (branch : Branch) : Branch where
  complete := branch.alternative :: branch.complete
  completeDepths := branch.allDepths

/-- The whole alternation. -/
def whole (branch : Branch) : Pattern :=
  .alts (branch.alternative :: branch.complete).reverse

/-- Repeats the last item. -/
def repeatLast (branch : Branch) (least : Nat) (most : Option Nat) (greedy : Bool) :
    Except SyntaxError Branch :=
  match branch.last with
  | none => .error .repetitionMissing
  | some item =>
    .ok { branch with
      last := some (.times least most greedy item)
      depths := branch.depths.modifyHead (· + 1) }

end Branch

namespace PatternFlags

/-- The class of a dot. Without the characters of all scripts it would match a single byte. -/
def dot (flags : PatternFlags) : Except SyntaxError CharClass :=
  if !flags.unicode then .error .characterSplit
  else if flags.dotMatchesNewline then .ok .any
  else if flags.returnEndsLine then .ok .notLineEnd
  else .ok .notNewline

/-- The condition of a caret. -/
def caret (flags : PatternFlags) : Assertion :=
  if !flags.multiLine then .textStart
  else if flags.returnEndsLine then .lineStartAny
  else .lineStart

/-- The condition of a dollar sign. -/
def dollar (flags : PatternFlags) : Assertion :=
  if !flags.multiLine then .textEnd
  else if flags.returnEndsLine then .lineEndAny
  else .lineEnd

end PatternFlags

/-- A group that is still open. -/
structure OpenGroup where
  /-- The number of the group, if it captures. -/
  index : Option Nat
  /-- The flags around the group. -/
  flags : PatternFlags
  /-- The alternation around the group. -/
  outer : Branch
  deriving Repr, Inhabited

/-- How far a text was read. -/
structure Reading where
  flags : PatternFlags := {}
  /-- How many capturing groups were opened. -/
  groups : Nat := 0
  /-- The names of groups, with their numbers. -/
  names : List (String × Nat) := []
  stack : List OpenGroup := []
  branch : Branch := {}
  engine : Engine := {}
  deriving Inhabited

namespace Reading

/-- How characters and classes are read. -/
def mode (state : Reading) : ScanMode where
  ignoreCase := state.flags.ignoreCase
  ignoreSpace := state.flags.ignoreSpace
  unicode := state.flags.unicode
  engine := state.engine

/-- Adds an item to the innermost alternation. -/
def add (state : Reading) (item : Pattern) : Reading :=
  { state with branch := state.branch.add item }

/-- Adds one character of a class. -/
def addOne (state : Reading) (members : CharClass) : Reading :=
  state.add (.one members)

/-- Adds one character of a class that was read from brackets. -/
def addBracket (state : Reading) (members : NestedClass) : Reading :=
  { state with branch := state.branch.add (.one members.set) members.depth }

/-- Adds a character that stands for itself. Among the characters of ASCII only, no other character
has a case. -/
def addLiteral (state : Reading) (c : Char) : Reading :=
  state.addOne
    (if state.flags.unicode || c.toNat < 128 then state.mode.fold (.single c) else .single c)

/-- Opens a group. -/
def openGroup (state : Reading) (index : Option Nat) (flags : PatternFlags) : Reading :=
  { state with
    flags := flags
    stack := ⟨index, state.flags, state.branch⟩ :: state.stack
    branch := {} }

/-- Opens the next capturing group. -/
def openCapture (state : Reading) : Reading :=
  { state.openGroup (some (state.groups + 1)) state.flags with groups := state.groups + 1 }

/-- Opens the next capturing group under a name. -/
def openNamed (state : Reading) (name : List Char) : Except SyntaxError Reading :=
  let name := String.ofList name
  if (state.names.lookup name).isSome then .error .groupNameRepeated
  else .ok { state.openCapture with names := state.names ++ [(name, state.groups + 1)] }

/-- Closes the innermost open group. -/
def closeGroup (state : Reading) : Except SyntaxError Reading :=
  match state.stack with
  | [] => .error .groupUnopened
  | group :: stack =>
    let inner := state.branch.whole
    let item :=
      match group.index with
      | some index => .group index inner
      | none => inner
    .ok { state with
      flags := group.flags
      stack := stack
      branch := group.outer.add item (state.branch.depth + 1) }

/-- What follows an opening parenthesis: a name, flags or nothing. Flags may stand alone up to
the closing parenthesis, and then hold from there to the end of the group around them. -/
def startGroup (state : Reading) (cs : List Char) :
    Except SyntaxError (Reading × List Char) := do
  match skipSpace state.flags.ignoreSpace cs with
  | '?' :: '=' :: _ | '?' :: '!' :: _ | '?' :: '<' :: '=' :: _ | '?' :: '<' :: '!' :: _ =>
    throw .lookaround
  | '?' :: 'P' :: '<' :: cs | '?' :: '<' :: cs =>
    let (name, rest) ← scanName true cs
    return (← state.openNamed name, rest)
  | '?' :: cs =>
    let ((flags, found), rest) ← scanFlags [] state.flags cs
    match rest with
    | ':' :: rest => return (state.openGroup none flags, rest)
    | ')' :: rest =>
      if found then return ({ state with flags := flags, branch := state.branch.settle }, rest)
      else throw .repetitionMissing
    | _ => throw .flagsUnclosed
  | cs => return (state.openCapture, cs)

/-- Repeats the last item. A question mark after the sign turns the preference round. -/
def repeatLast (state : Reading) (least : Nat) (most : Option Nat) (rest : List Char) :
    Except SyntaxError (Reading × List Char) := do
  let (greedy, rest) :=
    match rest with
    | '?' :: rest => (state.flags.swapGreed, rest)
    | rest => (!state.flags.swapGreed, rest)
  return ({ state with branch := ← state.branch.repeatLast least most greedy }, rest)

/-- A repetition with counts, after the opening brace. -/
def startCount (state : Reading) (cs : List Char) :
    Except SyntaxError (Reading × List Char) := do
  let skip := skipSpace state.flags.ignoreSpace
  let (least, rest) ← scanCount state.flags.ignoreSpace (skip cs)
  match rest with
  | '}' :: rest => state.repeatLast least (some least) (skip rest)
  | ',' :: rest =>
    match skip rest with
    | '}' :: rest => state.repeatLast least none (skip rest)
    | rest =>
      let (most, rest) ← scanCount state.flags.ignoreSpace rest
      match rest with
      | '}' :: rest =>
        if least ≤ most then state.repeatLast least (some most) (skip rest)
        else throw .countReversed
      | _ => throw .countUnclosed
  | _ => throw .countUnclosed

/-- An escape outside of brackets. -/
def addEscaped (state : Reading) : Escaped → Reading
  | .literal c => state.addLiteral c
  | .members set => state.addOne set
  | .condition assertion => state.add (.assert assertion)

/-- Reads the construct that starts with `c`. -/
def step (state : Reading) (c : Char) (cs : List Char) :
    Except SyntaxError (Reading × List Char) := do
  let flags := state.flags
  if flags.ignoreSpace && isBlank c then return (state, cs)
  else if flags.ignoreSpace && c = '#' then return (state, dropSpace true cs)
  else match c with
    | '(' => state.startGroup cs
    | ')' => return (← state.closeGroup, cs)
    | '|' => return ({ state with branch := state.branch.next }, cs)
    | '[' =>
      let (members, rest) ← scanBracket state.mode cs
      return (state.addBracket members, rest)
    | '?' => state.repeatLast 0 (some 1) cs
    | '*' => state.repeatLast 0 none cs
    | '+' => state.repeatLast 1 none cs
    | '\x7b' => state.startCount cs
    | '\\' =>
      let (escaped, rest) ← scanEscape state.mode cs
      return (state.addEscaped escaped, rest)
    | '.' => return (state.addOne (← flags.dot), cs)
    | '^' => return (state.add (.assert flags.caret), cs)
    | '$' => return (state.add (.assert flags.dollar), cs)
    | c => return (state.addLiteral c, cs)

/-- Reads a text to its end, in at most the given number of steps. -/
def steps : Nat → Reading → List Char → Except SyntaxError Reading
  | _, state, [] => .ok state
  | 0, _, _ :: _ => .error .textLeft
  | n + 1, state, c :: cs => do
    let (state, rest) ← state.step c cs
    steps n state rest

end Reading

/-- A regular expression that was read, with the numbers of its named groups and how deep it was
nested. -/
structure PatternText where
  pattern : Pattern
  names : List (String × Nat)
  depth : Nat
  deriving Repr, Inhabited

/-- The regular expression with the given text, as far as the syntax goes. Any depth is accepted. -/
def Pattern.read (text : List Char) (engine : Engine := {}) : Except SyntaxError PatternText := do
  let state ← Reading.steps text.length { engine := engine } text
  if state.stack.isEmpty then return ⟨state.branch.whole, state.names, state.branch.depth⟩
  else throw .groupUnclosed

end GlobTree
