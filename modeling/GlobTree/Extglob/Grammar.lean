import GlobTree.Extglob.Kind
import GlobTree.Parser.Basic
/-!
# The grammar of extended glob patterns

`Extglob.handlers` is the table of handlers for extended glob patterns. The order matters. Escapes
come first; then, inside of brackets, all text up to the next backslash or closing bracket; then
quoted texts, whose contents no other handler sees. A parenthesis with a sign in front comes before
the star and the question mark, and two stars come before one.
-/

namespace GlobTree.Extglob

/-! ## Rules -/

/-- The rule with a pattern that is known to be one. -/
def ruleOf (pattern : String) (valid : (Rule.read pattern).toOption.isSome) : Rule :=
  (Rule.read pattern).toOption.get valid

/-- A backslash and any character. -/
def escapeRule : Rule := ruleOf "\\\\(?s:.)" rfl

/-- A text in double quotes, in which a backslash takes the next character with it. -/
def quotedRule : Rule := ruleOf "\"(?:[^\"\\\\]|\\\\(?s:.))*\"" rfl

/-- A parenthesis with a sign in front or none. -/
def parenOpenRule : Rule := ruleOf "(?P<prefix>[!@*?+])?\\(" rfl

/-- A closing parenthesis. -/
def parenCloseRule : Rule := ruleOf "\\)" rfl

/-- An opening brace. -/
def braceOpenRule : Rule := ruleOf "\\\x7b" rfl

/-- A closing brace. -/
def braceCloseRule : Rule := ruleOf "\\\x7d" rfl

/-- An opening bracket, perhaps negated. -/
def bracketOpenRule : Rule := ruleOf "\\[(?P<prefix>[!^])?" rfl

/-- A closing bracket. -/
def bracketCloseRule : Rule := ruleOf "\\]" rfl

/-- Two stars. -/
def globstarRule : Rule := ruleOf "\\*\\*" rfl

/-- A star. -/
def starRule : Rule := ruleOf "\\*" rfl

/-- A question mark. -/
def qmarkRule : Rule := ruleOf "\\?" rfl

/-- A slash. -/
def slashRule : Rule := ruleOf "/" rfl

/-- A comma. -/
def commaRule : Rule := ruleOf "," rfl

/-- A bar. -/
def pipeRule : Rule := ruleOf "\\|" rfl

/-- Text inside of brackets. -/
def classTextRule : Rule := ruleOf "[^\\\\\\]]+" rfl

/-- Characters without a meaning of their own. -/
def textRule : Rule := ruleOf "[^\\\\\"()\x7b\x7d\\[\\]*?/,|!@+]+" rfl

/-- A sign without a parenthesis, a quote without its partner, or a backslash at the end. -/
def strayRule : Rule := ruleOf "[!@+\"\\\\]" rfl

/-! ## Handlers -/

/-- What is said of a bar between no alternatives. -/
def pipeComplaint : String := "Alternation '|' outside of a group"

/-- Inside of brackets, everything but backslashes and closing brackets is text. -/
def classText {M : Type} : Program Kind M Unit := do
  let state ← Program.state
  if state.isInside .bracket then
    let start ← Program.mark
    if let some _ ← Program.tryEat classTextRule then
      let _ ← Program.push .text start

/-- A bar, which only means something inside of a group. -/
def pipe {M : Type} : Program Kind M Unit := do
  let start ← Program.mark
  if let some _ ← Program.tryEat pipeRule then
    let state ← Program.state
    if state.currentGroup?.isNone then Program.complain pipeComplaint
    let _ ← Program.push .pipe start

/-- The handlers for extended glob patterns. -/
def handlers {M : Type} : Array (Handler Kind M) := #[
  .capture .escape escapeRule,
  .middleware classText,
  .capture .quoted quotedRule,
  .opening .paren parenOpenRule,
  .closing .paren parenCloseRule,
  .opening .brace braceOpenRule,
  .closing .brace braceCloseRule,
  .opening .bracket bracketOpenRule,
  .closing .bracket bracketCloseRule,
  .capture .globstar globstarRule,
  .capture .star starRule,
  .capture .qmark qmarkRule,
  .capture .slash slashRule,
  .capture .comma commaRule,
  .middleware pipe,
  .capture .text textRule,
  .capture .text strayRule]

/-- A parser for extended glob patterns, with a memory for handlers that may be added. -/
def parserWith {M : Type} (memory : M) (options : ParserOptions) : Parser Kind M where
  handlers := handlers
  state := .fresh options
  memory := memory

/-- A parser for extended glob patterns. -/
def parser (options : ParserOptions) : Parser Kind Unit := parserWith () options

end GlobTree.Extglob
