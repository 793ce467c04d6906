/-!
# Options of a parser
-/

namespace GlobTree

/-- What becomes of the problems that handlers report. -/
inductive ErrorMode
  /-- The first one ends the parse. -/
  | throw
  /-- They are noted in the document. -/
  | collect
  deriving DecidableEq, Repr, Inhabited

/-- Options of a parser. -/
structure ParserOptions where
  /-- The label of the text, for positions and messages. -/
  sourceLabel : String := "string"
  /-- Whether a group that is open at the end is an error. -/
  strict : Bool := false
  errorMode : ErrorMode := .throw
  deriving DecidableEq, Repr, Inhabited

namespace ParserOptions

/-- Sets the label of the text. -/
def withLabel (options : ParserOptions) (label : String) : ParserOptions :=
  { options with sourceLabel := label }

/-- Sets whether a group that is open at the end is an error. -/
def withStrict (options : ParserOptions) (strict : Bool) : ParserOptions :=
  { options with strict := strict }

/-- Sets what becomes of problems. -/
def withErrorMode (options : ParserOptions) (mode : ErrorMode) : ParserOptions :=
  { options with errorMode := mode }

/-- Notes problems in the document. -/
def lenient (options : ParserOptions) : ParserOptions := options.withErrorMode .collect

end ParserOptions

end GlobTree
