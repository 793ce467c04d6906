import GlobTree.Regex.Escape
import GlobTree.Regex.Matching
import GlobTree.Regex.Reading
import GlobTree.Text.Bytes
/-!
# Rules

A rule recognises a piece of text at the head of what is left to read. It is written as a regular
expression, which is put between `\A(?:` and `)` to anchor it. The wrap is one of text: a rule that
closes the wrapping group and opens another, such as `a)|(?:b`, has a branch without an anchor. An
expression that is nested too deep, or too large when it is compiled, is no rule either.

Two groups have a meaning to the parser: the one named `prefix` is text that belongs to a group in
front of its opening token, the one named `suffix` belongs to a closing token.
-/

namespace GlobTree

/-- A regular expression to recognise the head of a text. -/
structure Rule where
  /-- The expression as it was given. -/
  pattern : String
  regex : Regex
  /-- The numbers of the named groups. -/
  names : List (String × Nat)
  deriving DecidableEq, Repr, Inhabited

/-- A text that is no rule, with the reason. -/
structure RuleError where
  pattern : String
  cause : SyntaxError
  deriving DecidableEq, Repr

/-- The heading of a report on a text that is no rule. The fault itself is in `cause`. -/
def RuleError.message (error : RuleError) : String :=
  s!"Invalid rule `{error.pattern}`: "

/-- What a rule recognised. The text is never empty. -/
structure RuleMatch where
  text : String
  /-- The text of the group `prefix`. -/
  lead : Option String
  /-- The text of the group `suffix`. -/
  trail : Option String
  /-- The texts of all groups in order, where a group without a part in the match has none. -/
  groups : List (Option String)
  deriving DecidableEq, Repr, Inhabited

namespace RuleMatch

/-- The number of bytes recognised. -/
def size (found : RuleMatch) : Nat := found.text.utf8ByteSize

/-- The text of a group, counted from zero. -/
def group? (found : RuleMatch) (index : Nat) : Option String :=
  (found.groups[index]?).join

end RuleMatch

namespace Rule

/-- A regular expression anchored to the head of the text. -/
def anchored (pattern : List Char) : List Char :=
  ['\\', 'A', '(', '?', ':'] ++ pattern ++ [')']

/-- Checks an expression that was read from a text against the bounds of the engine. -/
def checkBounds (engine : Engine) (text : List Char) (read : PatternText) :
    Except SyntaxError PatternText :=
  if engine.nesting < read.depth then .error .nestedTooDeep
  else if engine.fits text then .ok read
  else .error .compiledTooLarge

/-- The rule with the given pattern. -/
def read (pattern : String) (engine : Engine := {}) : Except RuleError Rule :=
  let text := anchored pattern.toList
  match Pattern.read text engine >>= checkBounds engine text with
  | .ok result => .ok ⟨pattern, result.pattern.compile, result.names⟩
  | .error cause => .error ⟨pattern, cause⟩

/-- The rule that recognises one text. -/
def literal (text : String) (engine : Engine := {}) : Except RuleError Rule :=
  read (String.ofList (escapeText text.toList)) engine

/-- What the rule recognises in a text. An empty match counts as none. -/
def matchHead (rule : Rule) (text : List Char) : Option RuleMatch :=
  (rule.regex.search text).bind fun found =>
    let textOf (stretch : Stretch) := String.ofList (stretch.of text)
    let group (index : Nat) := (found.group index).map textOf
    let named (name : String) := (rule.names.lookup name).bind group
    if (found.stretch.of text).isEmpty then none
    else some
      { text := textOf found.stretch
        lead := named "prefix"
        trail := named "suffix"
        groups := (List.range rule.regex.groupCount).map fun index => group (index + 1) }

end Rule

end GlobTree
