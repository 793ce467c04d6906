/-!
# The kinds of extended glob patterns
-/

namespace GlobTree.Extglob

/-- What the pieces of an extended glob pattern are. -/
inductive Kind
  /-- A backslash with the character after it. -/
  | escape
  /-- A text in double quotes. -/
  | quoted
  /-- Two stars. -/
  | globstar
  | star
  | qmark
  | slash
  | comma
  /-- A bar between alternatives. -/
  | pipe
  /-- Any other text. -/
  | text
  /-- A group in parentheses, with one of the signs `!`, `@`, `*`, `?` and `+` in front or none. -/
  | paren
  /-- A group in braces. -/
  | brace
  /-- A group in brackets, which `!` or `^` may negate. -/
  | bracket
  deriving DecidableEq, Repr, Inhabited

namespace Kind

/-- The name of a kind. -/
def name : Kind → String
  | escape => "escape"
  | quoted => "quoted"
  | globstar => "globstar"
  | star => "star"
  | qmark => "qmark"
  | slash => "slash"
  | comma => "comma"
  | pipe => "pipe"
  | text => "text"
  | paren => "paren"
  | brace => "brace"
  | bracket => "bracket"

instance : ToString Kind := ⟨name⟩

/-- The kinds of tokens. -/
def tokens : List Kind :=
  [escape, quoted, globstar, star, qmark, slash, comma, pipe, text]

/-- The kinds of groups. -/
def groups : List Kind := [paren, brace, bracket]

/-- The kind with a name. -/
def ofName? (name : String) : Option Kind :=
  (tokens ++ groups).find? (·.name == name)

end Kind

end GlobTree.Extglob
