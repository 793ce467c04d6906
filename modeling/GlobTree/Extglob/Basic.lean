import GlobTree.Extglob.Grammar
import GlobTree.Extglob.ToRegex
import GlobTree.Extglob.Verbatim
/-!
# Extended glob patterns

The way of a pattern through the library: `parse` makes a document of it, `roundTrip` writes it as
it was, and `toRegex` writes it as a regular expression.
-/

namespace GlobTree.Extglob

/-- Parses a pattern. -/
def parse (pattern : String) (options : ParserOptions) :
    Except (ParseStop Kind) (Document Kind) :=
  ((parser options).parse pattern).1

/-- Why a pattern could not be rendered. -/
inductive Failure
  | parse (stop : ParseStop Kind)
  | render (stop : RenderStop Kind)
  deriving DecidableEq, Repr

/-- Parses a pattern and writes it as it was. -/
def roundTrip (pattern : String) (parserOptions : ParserOptions)
    (renderOptions : RenderOptions) : Except Failure Rendered := do
  let document ← (parse pattern parserOptions).mapError .parse
  ((verbatimRenderer renderOptions).render document).1.mapError .render

/-- Writes a pattern as a regular expression. All groups have to be closed. -/
def toRegex (pattern : String) : Except Failure String := do
  let document ← (parse pattern (ParserOptions.withStrict {} true)).mapError .parse
  let rendered ← ((regexRenderer {}).render document).1.mapError .render
  return rendered.output

end GlobTree.Extglob
