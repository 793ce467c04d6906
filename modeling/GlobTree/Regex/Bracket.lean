import GlobTree.Regex.Scan
/-!
# Bracket expressions

`scanBracket` reads a bracket expression such as `[^a-z]` into the class of characters it stands
for. Brackets nest, and three operators join the members before them with the members after them:
`&&` intersects, `--` subtracts and `~~` takes the symmetric difference, all from left to right.

The members that are read but not yet closed off form a stack of `BracketFrame`s. A class keeps
with it how deep it was nested (`NestedClass`): brackets, operators, and two members or more in a
row are a level each.
-/

namespace GlobTree

/-- The operators of bracket expressions. -/
inductive BracketOperator
  | inter
  | diff
  | symmDiff
  deriving DecidableEq, Repr

/-- The class that an operator makes of its operands. -/
def BracketOperator.apply : BracketOperator → CharClass → CharClass → CharClass
  | inter, a, b => .inter a b
  | diff, a, b => .diff a b
  | symmDiff, a, b => .symmDiff a b

/-- A class, and how deep it was nested when it was read. -/
structure NestedClass where
  set : CharClass
  depth : Nat
  deriving DecidableEq, Repr, Inhabited

namespace NestedClass

/-- A class without brackets in it. -/
def flat (set : CharClass) : NestedClass := ⟨set, 0⟩

/-- The class of some members, given the latest first. -/
def union (members : List NestedClass) : NestedClass where
  set := .unions (members.reverse.map (·.set))
  depth := depthOfParts (members.map (·.depth))

/-- The class that an operator makes of its operands. -/
def operate (mode : ScanMode) (op : BracketOperator) (left right : NestedClass) : NestedClass where
  set := op.apply (mode.fold left.set) (mode.fold right.set)
  depth := max left.depth right.depth + 1

/-- The class in brackets. -/
def bracketed (mode : ScanMode) (negated : Bool) (a : NestedClass) : NestedClass where
  set := .complIf negated (mode.fold a.set)
  depth := a.depth + 1

end NestedClass

/-- What is still open in a bracket expression. -/
inductive BracketFrame
  /-- An open bracket, with the members of the bracket around it, the latest first. -/
  | bracket (negated : Bool) (outer : List NestedClass)
  /-- An operator that has its left operand. -/
  | operator (op : BracketOperator) (left : NestedClass)
  deriving Repr

/-- What one step of reading a bracket expression leaves: more to read, or the whole class. -/
inductive BracketStep
  | more (members : List NestedClass) (stack : List BracketFrame) (rest : List Char)
  | done (members : NestedClass) (rest : List Char)

/-- One member: an escape or a character that stands for itself. -/
def scanMember (mode : ScanMode) : List Char → Except SyntaxError (Escaped × List Char)
  | [] => .error .bracketUnclosed
  | c :: cs =>
    let scan : Except SyntaxError (Escaped × List Char) :=
      if c = '\\' then scanEscape mode cs else .ok (.literal c, cs)
    scan >>= asciiOnly mode .unicodeNeeded

/-- The class of a member that stands alone. -/
def Escaped.toClass : Escaped → Except SyntaxError CharClass
  | .literal c => .ok (.single c)
  | .members set => .ok set
  | .condition _ => .error .bracketAssertion

/-- The character of a member that is the end of a range. -/
def Escaped.toChar : Escaped → Except SyntaxError Char
  | .literal c => .ok c
  | _ => .error .bracketRangeOfClass

/-- The character after the head of the text, which decides whether a minus sign stands for a
range. A comment is not skipped here, only its mark. -/
def nextAfter (ignoreSpace : Bool) : List Char → Option Char
  | [] => none
  | _ :: cs =>
    if ignoreSpace then
      match cs.dropWhile isBlank with
      | [] => none
      | '#' :: cs => (cs.dropWhile isBlank).head?
      | c :: _ => some c
    else cs.head?

/-- A member, or a range of two with a minus sign between them. The sign stands for itself before
`]`, and is half of an operator before another sign. -/
def scanRange (mode : ScanMode) (cs : List Char) :
    Except SyntaxError (CharClass × List Char) := do
  let (low, rest) ← scanMember mode cs
  let rest := skipSpace mode.ignoreSpace rest
  match rest with
  | [] => throw .bracketUnclosed
  | c :: after =>
    let next := nextAfter mode.ignoreSpace rest
    if c ≠ '-' ∨ next = some ']' ∨ next = some '-' then
      return (← low.toClass, rest)
    else
      let (high, rest) ← scanMember mode (skipSpace mode.ignoreSpace after)
      let first ← low.toChar
      let last ← high.toChar
      if first ≤ last then return (.range first last, rest) else throw .bracketRangeReversed

/-- The minus signs at the start of a bracket, which stand for themselves. -/
def takeSigns (ignoreSpace : Bool) : Nat → List Char → List CharClass × List Char
  | 0, cs => ([], cs)
  | _ + 1, [] => ([], [])
  | n + 1, c :: cs =>
    if c = '-' then
      let (signs, rest) := takeSigns ignoreSpace n (skipSpace ignoreSpace cs)
      (.single '-' :: signs, rest)
    else ([], c :: cs)

/-- The start of a bracket, after `[`: a caret that negates, minus signs, and a `]` that stands for
itself if it is the first member. Only the characters of all scripts can be negated. -/
def scanBracketStart (mode : ScanMode) (cs : List Char) :
    Scan (Bool × List CharClass) :=
  let skip := skipSpace mode.ignoreSpace
  let (negated, cs) :=
    match skip cs with
    | '^' :: cs => (true, skip cs)
    | cs => (false, cs)
  let (signs, cs) := takeSigns mode.ignoreSpace cs.length cs
  if negated && !mode.unicode then .error .characterSplit
  else match signs, cs with
  | _, [] => .error .bracketUnclosed
  | [], ']' :: cs =>
    match skip cs with
    | [] => .error .bracketUnclosed
    | cs => .ok ((negated, [.single ']']), cs)
  | signs, cs => .ok ((negated, signs), cs)

/-- A named class `[:name:]` or `[:^name:]`, after the first bracket, and whether it is negated.
There is none unless the whole of it is there. -/
def scanNamedClass? : List Char → Option ((Bool × CharClass) × List Char)
  | ':' :: cs =>
    let (negated, cs) :=
      match cs with
      | '^' :: cs => (true, cs)
      | cs => (false, cs)
    let name := cs.takeWhile (· ≠ ':')
    match cs.dropWhile (· ≠ ':') with
    | ':' :: ']' :: rest =>
      (CharClass.named? (String.ofList name)).map fun members => ((negated, members), rest)
    | _ => none
  | _ => none

/-- Applies the operator on top of the stack, if there is one, to its right operand. -/
def applyPending (mode : ScanMode) (right : NestedClass) :
    List BracketFrame → NestedClass × List BracketFrame
  | .operator op left :: stack => (left.operate mode op right, stack)
  | stack => (right, stack)

/-- Puts an operator on the stack, after the one before it was applied. -/
def pushOperator (mode : ScanMode) (op : BracketOperator) (members : List NestedClass)
    (stack : List BracketFrame) (rest : List Char) : BracketStep :=
  let (left, stack) := applyPending mode (.union members) stack
  .more [] (.operator op left :: stack) rest

/-- Closes the innermost open bracket. -/
def closeBracket (mode : ScanMode) (members : List NestedClass) (stack : List BracketFrame)
    (rest : List Char) : BracketStep :=
  let (whole, stack) := applyPending mode (.union members) stack
  match stack with
  | .bracket negated outer :: stack =>
    let closed := whole.bracketed mode negated
    if stack.isEmpty then .done closed rest else .more (closed :: outer) stack rest
  | _ => .done whole rest

/-- One step inside a bracket, at a text that does not start with a blank to be ignored. -/
def bracketStep (mode : ScanMode) (members : List NestedClass) (stack : List BracketFrame) :
    List Char → Except SyntaxError BracketStep
  | [] => .error .bracketUnclosed
  | '[' :: cs =>
    match scanNamedClass? cs with
    | some ((negated, named), rest) => do
      let named ← mode.complIf negated (mode.fold named)
      return .more (.flat named :: members) stack rest
    | none => do
      let ((negated, signs), rest) ← scanBracketStart mode cs
      return .more (signs.map .flat) (.bracket negated members :: stack) rest
  | ']' :: cs => .ok (closeBracket mode members stack cs)
  | '&' :: '&' :: cs => .ok (pushOperator mode .inter members stack cs)
  | '-' :: '-' :: cs => .ok (pushOperator mode .diff members stack cs)
  | '~' :: '~' :: cs => .ok (pushOperator mode .symmDiff members stack cs)
  | cs => do
    let (member, rest) ← scanRange mode cs
    return .more (.flat member :: members) stack rest

/-- Reads to the end of the outermost bracket, in at most the given number of steps. -/
def bracketSteps (mode : ScanMode) :
    Nat → List NestedClass → List BracketFrame → List Char →
      Except SyntaxError (NestedClass × List Char)
  | 0, _, _, _ => .error .bracketUnclosed
  | n + 1, members, stack, cs => do
    match ← bracketStep mode members stack (skipSpace mode.ignoreSpace cs) with
    | .more members stack rest => bracketSteps mode n members stack rest
    | .done members rest => return (members, rest)

/-- A bracket expression, after its opening bracket. -/
def scanBracket (mode : ScanMode) (cs : List Char) :
    Except SyntaxError (NestedClass × List Char) := do
  let ((negated, signs), rest) ← scanBracketStart mode cs
  bracketSteps mode (rest.length + 1) (signs.map .flat) [.bracket negated []] rest

end GlobTree
