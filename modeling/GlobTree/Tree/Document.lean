import GlobTree.Tree.Arena
/-!
# Documents

A `Document` is a tree of nodes together with the text it was parsed from, a label for that text
and the problems that were noted on the way.

`consumedBefore?` and `remainingAfter?` give the text that a parser had read before a node and the
text that it had still to read when it made the node.
-/

namespace GlobTree

/-- A problem that did not keep a parser from going on. -/
structure Diagnostic where
  message : String
  location : Location
  source : String
  deriving DecidableEq, Repr, Inhabited

instance : ToString Diagnostic where
  toString note := s!"{note.source}:{note.location}: {note.message}"

/-- A parsed text. -/
structure Document (K : Type) extends Arena K where
  source : String
  label : String
  diagnostics : Array Diagnostic
  deriving DecidableEq, Repr

namespace Document

variable {K : Type}

/-- A document without text. -/
def empty (label : String) : Document K where
  toArena := .empty label
  source := ""
  label := label
  diagnostics := #[]

instance : Inhabited (Document K) := ⟨empty ""⟩

/-- Whether problems were noted. -/
def hasDiagnostics (document : Document K) : Bool := !document.diagnostics.isEmpty

/-- Adds a node as the last child of a parent. -/
def append? (document : Document K) (parent : NodeId) (node : Node K) :
    Option (NodeId × Document K) :=
  (document.toArena.append? parent node).map fun (id, arena) =>
    (id, { document with toArena := arena })

/-- The text between two byte offsets. -/
def slice? (document : Document K) (start stop : Nat) : Option String :=
  (sliceBytes? start stop document.source.toList).map String.ofList

/-- The text before the start of a node. -/
def consumedBefore? (document : Document K) (id : NodeId) : Option String := do
  let node ← document.node? id
  document.slice? 0 (min node.span.start.offset document.source.utf8ByteSize)

/-- The text that was left to read when a node was made. A node that no parser made is taken to be
made at its end, with the whole text there. -/
def remainingAfter? (document : Document K) (id : NodeId) : Option String := do
  let node ← document.node? id
  let size := document.source.utf8ByteSize
  let stop := min node.span.stop.offset size
  let (start, horizon) :=
    match node.made with
    | some moment => (min (max moment.cursor stop) size, min moment.horizon size)
    | none => (stop, size)
  document.slice? start (max horizon start)

end Document

end GlobTree
