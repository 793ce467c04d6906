import GlobTree.Render.Renderer
/-!
# The mappings of a rendered document

Every fragment on a canvas has one mapping in the source map, in the same order
(`Renderer.mappings_sourceMap`).
-/

namespace GlobTree

namespace SourceMapBuilder

@[simp] theorem mappings_addSource (builder : SourceMapBuilder) (label : String) :
    (builder.addSource label).2.mappings = builder.mappings := by
  rw [addSource]
  split <;> rfl

@[simp] theorem mappings_addMapping (builder : SourceMapBuilder) (generated : Location)
    (origin : Span) :
    (builder.addMapping generated origin).mappings = builder.mappings.push ⟨generated, origin⟩ := by
  rw [addMapping]
  simp

@[simp] theorem mappings_setContent (builder : SourceMapBuilder) (label content : String) :
    (builder.setContent label content).mappings = builder.mappings := by
  rw [setContent]
  simp

end SourceMapBuilder

/-- The mapping of a fragment. -/
def Fragment.mapping (fragment : Fragment) : Mapping := ⟨fragment.generated, fragment.origin⟩

namespace Renderer

variable {K : Type}

/-- Adding the fragments of a list adds their mappings. -/
theorem mappings_foldl (fragments : List Fragment) (builder : SourceMapBuilder) :
    (fragments.foldl (fun builder fragment =>
      builder.addMapping fragment.generated fragment.origin) builder).mappings =
      builder.mappings ++ (fragments.map Fragment.mapping).toArray := by
  induction fragments generalizing builder with
  | nil => simp
  | cons fragment fragments ih =>
    rw [List.foldl_cons, ih, SourceMapBuilder.mappings_addMapping]
    simp [Fragment.mapping]

/-- **The mappings are those of the fragments.** -/
theorem mappings_sourceMap (document : Document K) (file : Option String) (canvas : Canvas) :
    (sourceMap document file canvas).mappings = canvas.fragments.map Fragment.mapping := by
  rw [sourceMap, ← Array.foldl_toList, mappings_foldl, SourceMapBuilder.mappings_setContent]
  simp [SourceMapBuilder.new, ← Array.toList_map]

theorem mappings_rendered {document : Document K} {options : RenderOptions} {canvas : Canvas}
    {map : SourceMapOutput} (h : (rendered document options canvas).sourceMap = some map) :
    map.mappings = canvas.fragments.map Fragment.mapping := by
  rw [rendered] at h
  cases hmode : options.sourceMap <;> rw [hmode] at h <;> cases h <;>
    exact mappings_sourceMap document options.file canvas

theorem isSome_sourceMap_iff (document : Document K) (options : RenderOptions) (canvas : Canvas) :
    (rendered document options canvas).sourceMap.isSome ↔ options.sourceMap ≠ .disabled := by
  rw [rendered]
  cases options.sourceMap <;> simp

end Renderer

end GlobTree
