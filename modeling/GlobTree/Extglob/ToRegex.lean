import GlobTree.Extglob.Kind
import GlobTree.Regex.Escape
import GlobTree.Render.Renderer
/-!
# Patterns as regular expressions

`regexRenderer` writes a pattern as a regular expression:

| Pattern   | Regular expression |
|-----------|--------------------|
| `*`       | `[^/]*`            |
| `**`      | `.*`               |
| `?`       | `[^/]`             |
| `{a,b}`   | `(?:a\|b)`         |
| `@(a\|b)` | `(?:a\|b)`         |
| `?(a)`    | `(?:a)?`           |
| `*(a)`    | `(?:a)*`           |
| `+(a)`    | `(?:a)+`           |
| `[!a-z]`  | `[^a-z]`           |

A negated group `!(a)` has no such form and is refused (`Refusal`), and so are groups that are not
closed and brackets without members.
-/

namespace GlobTree.Extglob

/-- Why a node has no form as a regular expression. -/
inductive Refusal
  /-- The group is not closed. -/
  | unclosed (kind : Option Kind) (span : Span)
  /-- The sign in front of the group has no counterpart. -/
  | inexpressible (sign : String) (span : Span)
  /-- The brackets have no members. -/
  | emptyBracket (span : Span)
  /-- The brackets hold something other than a token. -/
  | unexpected (role : Role Kind) (span : Span)
  deriving DecidableEq, Repr

/-- A refusal in words. -/
def Refusal.message : Refusal → String
  | unclosed kind span =>
    let name := (kind.map Kind.name).getD "?"
    s!"Unclosed {name} group at {span}"
  | inexpressible sign span =>
    s!"Cannot express '{sign}(...)' at {span} as a regular expression"
  | emptyBracket span => s!"Empty bracket expression at {span}"
  | unexpected role span => s!"Unexpected {role} inside bracket expression at {span}"

/-- Refuses a node. -/
def refuse {α : Type} (refusal : Refusal) : Drawing Kind α :=
  .fail (.handler refusal.message)

/-! ## Texts -/

/-- A text without the backslashes of its escapes. -/
def unescape : List Char → List Char
  | [] => []
  | ['\\'] => []
  | '\\' :: c :: cs => c :: unescape cs
  | c :: cs => c :: unescape cs

/-- The text between the first and the last byte. -/
def inner? (text : String) : Option (List Char) :=
  if text.isEmpty then none else sliceBytes? 1 (text.utf8ByteSize - 1) text.toList

/-- The characters that mean something inside of brackets. The minus sign is not among them, so
that ranges stay ranges. -/
def classMetaCharacters : List Char := ['\\', '[', ']', '^', '&', '~']

/-- A text as members of a bracket expression. -/
def escapeClass (text : List Char) : List Char := backslashed classMetaCharacters text

/-! ## Drawings -/

/-- A regular expression that matches a text and nothing else. -/
def drawLiteral (text : List Char) (node : Node Kind) : Drawing Kind Unit :=
  .write (String.ofList (escapeText text)) node

/-- A quoted text. -/
def drawQuoted (node : Node Kind) : Drawing Kind Unit := do
  let inside ← Drawing.ofOption (inner? node.raw)
  drawLiteral (unescape inside) node

/-- A comma, which separates alternatives if it stands directly in braces. -/
def drawComma (node : Node Kind) : Drawing Kind Unit :=
  match node.parent with
  | none => .write "," node
  | some parent => do
    let above ← Drawing.node parent
    Drawing.write (if above.role = .group .brace then "|" else ",") node

/-- Refuses a group that is not closed. -/
def requireClosed (node : Node Kind) (siblings : Array NodeId) (index : Nat) :
    Drawing Kind Unit := do
  let id ← Drawing.ofOption siblings[index]?
  let closed ← Drawing.look fun document _ => Drawing.ofOption (document.isClosed? id)
  if closed then return () else refuse (.unclosed node.role.kind? node.span)

/-- The repetition sign for the sign in front of a group. -/
def quantifier? : Option String → Option String
  | none => some ""
  | some "@" => some ""
  | some "?" => some "?"
  | some "*" => some "*"
  | some "+" => some "+"
  | some _ => none

/-- A group in parentheses. -/
def drawParen (node : Node Kind) (siblings : Array NodeId) (index : Nat) :
    Drawing Kind Unit := do
  requireClosed node siblings index
  match quantifier? node.lead with
  | none => refuse (.inexpressible (node.lead.getD "") node.span)
  | some quantifier =>
    Drawing.write "(?:" node
    Drawing.contents node
    Drawing.write ")" node
    Drawing.write quantifier node

/-- A group in braces. -/
def drawBrace (node : Node Kind) (siblings : Array NodeId) (index : Nat) :
    Drawing Kind Unit := do
  requireClosed node siblings index
  Drawing.write "(?:" node
  Drawing.contents node
  Drawing.write ")" node

/-- What a child of brackets contributes to their members. -/
def drawMember (child : Node Kind) : Drawing Kind Unit := do
  match child.role with
  | .opening _ | .closing _ => return ()
  | .token .escape => .write (String.ofList (escapeClass (unescape child.raw.toList))) child
  | .token .quoted =>
    let inside ← Drawing.ofOption (inner? child.raw)
    Drawing.write (String.ofList (escapeClass (unescape inside))) child
  | .token _ => .write (String.ofList (escapeClass child.raw.toList)) child
  | role => refuse (.unexpected role child.span)

/-- A group in brackets. -/
def drawBracket (node : Node Kind) (siblings : Array NodeId) (index : Nat) :
    Drawing Kind Unit := do
  requireClosed node siblings index
  let children ← Drawing.look fun document _ =>
    Drawing.ofOption (node.children.toList.mapM document.node?)
  if children.all (·.role.isDelimiter) then refuse (.emptyBracket node.span)
  Drawing.write (if node.lead.isSome then "[^" else "[") node
  Drawing.forEach children drawMember
  Drawing.write "]" node

/-- A renderer that writes a pattern as a regular expression. -/
def regexRenderer (options : RenderOptions) : Renderer Kind :=
  let fixed (text : String) : DrawFunction Kind := fun node _ _ => .write text node
  let functions : List (Role Kind × DrawFunction Kind) := [
    (.eos, fun _ _ _ => .nothing),
    (.token .text, fun node _ _ => drawLiteral node.raw.toList node),
    (.token .escape, fun node _ _ => drawLiteral (unescape node.raw.toList) node),
    (.token .quoted, fun node _ _ => drawQuoted node),
    (.token .star, fixed "[^/]*"),
    (.token .globstar, fixed ".*"),
    (.token .qmark, fixed "[^/]"),
    (.token .slash, fixed "/"),
    (.token .pipe, fixed "|"),
    (.token .comma, fun node _ _ => drawComma node),
    (.group .paren, drawParen),
    (.group .brace, drawBrace),
    (.group .bracket, drawBracket)]
  { functions := functions, options := options }

end GlobTree.Extglob
