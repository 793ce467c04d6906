import GlobTree.Json
import GlobTree.Parser.Options
import GlobTree.Render.Renderer
/-!
# Documents and results as JSON

The JSON form of documents, source maps, rendered texts and options. The nodes of a document are
written as a tree, each inside of its parent.
-/

namespace GlobTree

/-- The JSON form of a location. -/
def Location.toJson (place : Location) : Json :=
  .object [
    ("offset", .number place.offset),
    ("line", .number place.line),
    ("column", .number place.column)]

/-- The JSON form of a span. -/
def Span.toJson (span : Span) : Json :=
  .object [
    ("start", span.start.toJson),
    ("end", span.stop.toJson),
    ("source", .text span.source)]

/-- The JSON form of a diagnostic. -/
def Diagnostic.toJson (note : Diagnostic) : Json :=
  .object [
    ("message", .text note.message),
    ("location", note.location.toJson),
    ("source", .text note.source)]

namespace Arena

variable {K : Type} [ToString K]

/-- The JSON form of a node and all below it, as deep as the number says. -/
def nodeToJson (arena : Arena K) : Nat → NodeId → Json
  | 0, _ => .null
  | n + 1, id =>
    match arena.node? id with
    | none => .null
    | some node =>
      .object [
        ("type", .text (toString node.role)),
        ("value", .text node.raw),
        ("prefix", .ofText? node.lead),
        ("suffix", .ofText? node.trail),
        ("position", node.span.toJson),
        ("nodes", .list (node.children.toList.map (arena.nodeToJson n)))]

/-- The JSON form of the nodes below the root. No node is deeper than there are nodes. -/
def toJson (arena : Arena K) : Json :=
  .list (arena.topLevel.toList.map (arena.nodeToJson arena.size))

end Arena

/-- The JSON form of a document. -/
def Document.toJson {K : Type} [ToString K] (document : Document K) : Json :=
  .object [
    ("source", .text document.source),
    ("label", .text document.label),
    ("nodes", document.toArena.toJson),
    ("errors", .list (document.diagnostics.toList.map (·.toJson)))]

/-- The JSON form of a mapping. -/
def Mapping.toJson (mapping : Mapping) : Json :=
  .object [
    ("generated", mapping.generated.toJson),
    ("original", mapping.origin.toJson)]

/-- The JSON form of a source map. -/
def SourceMap.toJson (map : SourceMap) : Json :=
  .object [
    ("file", .ofText? map.file),
    ("sources", .list (map.sources.toList.map .text)),
    ("sourcesContent", .list (map.contents.toList.map .ofText?)),
    ("mappings", .list (map.mappings.toList.map (·.toJson)))]

/-- The JSON form of a source map that can still grow is that of the finished map. -/
def SourceMapBuilder.toJson (builder : SourceMapBuilder) : Json := builder.finish.toJson

/-- The JSON form of a rendered document. -/
def Rendered.toJson (rendered : Rendered) : Json :=
  .object [
    ("output", .text rendered.output),
    ("fragments", .number rendered.fragments),
    ("sourceMap",
      match rendered.sourceMap with
      | some map => map.toMap.toJson
      | none => .null)]

/-- The name of an error mode. -/
def ErrorMode.name : ErrorMode → String
  | throw => "throw"
  | collect => "collect"

/-- The JSON form of the options of a parser. -/
def ParserOptions.toJson (options : ParserOptions) : Json :=
  .object [
    ("sourceLabel", .text options.sourceLabel),
    ("strict", .bool options.strict),
    ("errorMode", .text options.errorMode.name)]

/-- The JSON form of a source map mode. -/
def SourceMapMode.toJson : SourceMapMode → Json
  | disabled => .bool false
  | enabled => .bool true
  | generator => .text "generator"

/-- The JSON form of the options of a renderer. -/
def RenderOptions.toJson (options : RenderOptions) : Json :=
  .object [
    ("sourcemap", options.sourceMap.toJson),
    ("file", .ofText? options.file)]

end GlobTree
