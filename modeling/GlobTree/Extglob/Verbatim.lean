import GlobTree.Extglob.Kind
import GlobTree.Render.Renderer
/-!
# Patterns as they were written
-/

namespace GlobTree.Extglob

/-- A renderer that gives back the text that was parsed. -/
def verbatimRenderer (options : RenderOptions) : Renderer Kind :=
  let start := (Renderer.new options).register .eos fun _ _ _ => .nothing
  let withTokens := Kind.tokens.foldl
    (fun renderer kind => renderer.register (.token kind) fun node _ _ => .raw node) start
  Kind.groups.foldl
    (fun renderer kind =>
      ((renderer.register (.group kind) fun node _ _ => .children node).register
        (.opening kind) fun node _ _ => .raw node).register
        (.closing kind) fun node _ _ => .raw node)
    withTokens

end GlobTree.Extglob
