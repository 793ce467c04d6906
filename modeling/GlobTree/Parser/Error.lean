import GlobTree.Text.Location
/-!
# Errors of a parser

A `ParseError` has a cause and the place where it arose. `ParseCause.message` puts each cause into
words, and `ParseCause.kind` sorts causes into five kinds.
-/

namespace GlobTree

/-- The kinds of errors that end a parse. -/
inductive ParseErrorKind
  /-- No handler took the next character. -/
  | noHandler
  /-- A closing token without an open group of its kind. -/
  | unbalancedClose
  /-- A group that is open at the end. -/
  | unterminated
  /-- A problem that a handler reported. -/
  | diagnostic
  /-- The parser failed before. -/
  | poisoned
  deriving DecidableEq, Repr, Inhabited

/-- What ended a parse. -/
inductive ParseCause (K : Type)
  /-- No handler took the character. -/
  | noHandler (next : Char)
  /-- A closing token with the text `raw`, for which the innermost open group, if there is one, is
  of the wrong kind. -/
  | unbalancedClose (kind : K) (raw : String) (innermost : Option K)
  /-- A group of this kind is open at the end. -/
  | unterminated (kind : K)
  /-- A handler reported a problem. -/
  | diagnostic (message : String)
  /-- The parser failed before and was not reset. -/
  | poisoned
  /-- An error of a handler's own making. -/
  | raised (kind : ParseErrorKind) (message : String)
  deriving DecidableEq, Repr, Inhabited

namespace ParseCause

variable {K : Type}

/-- The kind of an error. -/
def kind : ParseCause K → ParseErrorKind
  | noHandler _ => .noHandler
  | unbalancedClose _ _ _ => .unbalancedClose
  | unterminated _ => .unterminated
  | diagnostic _ => .diagnostic
  | poisoned => .poisoned
  | raised kind _ => kind

/-- An error in words. -/
def message [ToString K] : ParseCause K → String
  | noHandler next => s!"No handler matched input starting with '{next}'"
  | unbalancedClose kind raw none => s!"Missing opening {kind} for '{raw}'"
  | unbalancedClose kind raw (some innermost) =>
    s!"Missing opening {kind} for '{raw}' (innermost open group is {innermost})"
  | unterminated kind => s!"Unclosed {kind}: missing closing token before end of input"
  | diagnostic message => message
  | poisoned => "Parser is unusable after a fatal error; call reset() first"
  | raised _ message => message

end ParseCause

/-- An error that ended a parse. -/
structure ParseError (K : Type) where
  cause : ParseCause K
  /-- The label of the text. -/
  label : String
  line : Nat
  column : Nat
  deriving DecidableEq, Repr, Inhabited

namespace ParseError

variable {K : Type}

/-- An error at a place of a text. -/
def «at» (cause : ParseCause K) (label : String) (place : Location) : ParseError K :=
  ⟨cause, label, place.line, place.column⟩

/-- The kind of an error. -/
def kind (error : ParseError K) : ParseErrorKind := error.cause.kind

/-- An error in words, without its place. -/
def message [ToString K] (error : ParseError K) : String := error.cause.message

instance [ToString K] : ToString (ParseError K) where
  toString error :=
    s!"Parse error in {error.label} at line {error.line}, column {error.column}: {error.message}"

end ParseError

end GlobTree
