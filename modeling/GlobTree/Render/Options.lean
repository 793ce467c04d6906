/-!
# Options of a renderer
-/

namespace GlobTree

/-- Whether a renderer makes a source map, and in which form. -/
inductive SourceMapMode
  /-- No source map. -/
  | disabled
  /-- A finished source map. -/
  | enabled
  /-- A source map that can still grow. -/
  | generator
  deriving DecidableEq, Repr, Inhabited

/-- Options of a renderer. -/
structure RenderOptions where
  sourceMap : SourceMapMode := .disabled
  /-- The name of the file that is generated. -/
  file : Option String := none
  deriving DecidableEq, Repr, Inhabited

namespace RenderOptions

/-- Sets the form of the source map. -/
def withSourceMap (options : RenderOptions) (mode : SourceMapMode) : RenderOptions :=
  { options with sourceMap := mode }

/-- Sets the name of the file that is generated. -/
def withFile (options : RenderOptions) (file : String) : RenderOptions :=
  { options with file := some file }

end RenderOptions

end GlobTree
