import GlobTree.Text.Location
/-!
# Source maps

A `SourceMap` says of each piece of a generated text where it came from. It lists the labels of the
source texts, each once, in the order in which they were first mentioned, and next to each label
the text itself if it is known.

* `SourceMapBuilder.addMapping`, `addSource` and `setContent` let a map grow, and `finish` ends it.
* `SourceMap.lookup?` finds the mapping for an offset of the generated text.
-/

namespace GlobTree

/-- Where a piece of the generated text starts, and where it came from. -/
structure Mapping where
  generated : Location
  origin : Span
  deriving DecidableEq, Repr, Inhabited

/-- A finished source map. -/
structure SourceMap where
  file : Option String := none
  sources : Array String := #[]
  /-- The texts of the sources, in the same order. -/
  contents : Array (Option String) := #[]
  mappings : Array Mapping := #[]
  deriving DecidableEq, Repr, Inhabited

namespace SourceMap

/-- The number of mappings. -/
def size (map : SourceMap) : Nat := map.mappings.size

/-- Whether there are no mappings. -/
def isEmpty (map : SourceMap) : Bool := map.mappings.isEmpty

/-- Halves a stretch of mappings, in at most the given number of steps, until one is left: the
last one that starts at or before the offset, if the mappings are in order. -/
def bisect (mappings : Array Mapping) (offset : Nat) : Nat → Nat → Nat → Nat
  | 0, base, _ => base
  | n + 1, base, size =>
    if size ≤ 1 then base
    else
      let half := size / 2
      let middle := base + half
      let startsBefore := (mappings[middle]?).any (·.generated.offset ≤ offset)
      bisect mappings offset n (if startsBefore then middle else base) (size - half)

/-- The mapping of the piece of generated text that an offset lies in. -/
def lookup? (map : SourceMap) (offset : Nat) : Option Mapping :=
  let found := map.mappings[bisect map.mappings offset map.size 0 map.size]?
  found.filter (·.generated.offset ≤ offset)

end SourceMap

/-- A source map that can still grow. -/
structure SourceMapBuilder where
  file : Option String := none
  sources : Array String := #[]
  contents : Array (Option String) := #[]
  mappings : Array Mapping := #[]
  deriving DecidableEq, Repr, Inhabited

namespace SourceMapBuilder

/-- A map without mappings. -/
def new (file : Option String) : SourceMapBuilder where
  file := file

/-- Makes sure that a label is listed, and gives its index. -/
def addSource (builder : SourceMapBuilder) (label : String) : Nat × SourceMapBuilder :=
  match builder.sources.idxOf? label with
  | some index => (index, builder)
  | none =>
    (builder.sources.size,
      { builder with
        sources := builder.sources.push label
        contents := builder.contents.push none })

/-- Adds a mapping. -/
def addMapping (builder : SourceMapBuilder) (generated : Location) (origin : Span) :
    SourceMapBuilder :=
  let (_, builder) := builder.addSource origin.source
  { builder with mappings := builder.mappings.push ⟨generated, origin⟩ }

/-- Sets the text of a source. -/
def setContent (builder : SourceMapBuilder) (label content : String) : SourceMapBuilder :=
  let (index, builder) := builder.addSource label
  { builder with contents := builder.contents.setIfInBounds index (some content) }

/-- The finished map. -/
def finish (builder : SourceMapBuilder) : SourceMap :=
  ⟨builder.file, builder.sources, builder.contents, builder.mappings⟩

end SourceMapBuilder

/-- The source map of a rendered document, in the form that was asked for. -/
inductive SourceMapOutput
  | map (map : SourceMap)
  | generator (builder : SourceMapBuilder)
  deriving DecidableEq, Repr, Inhabited

namespace SourceMapOutput

/-- The mappings. -/
def mappings : SourceMapOutput → Array Mapping
  | map m => m.mappings
  | generator builder => builder.mappings

/-- The finished map. -/
def toMap : SourceMapOutput → SourceMap
  | map m => m
  | generator builder => builder.finish

end SourceMapOutput

end GlobTree
