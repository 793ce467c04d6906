import GlobTree.Main
import GlobTree.Proofs.Lines
import GlobTree.Proofs.Nesting
import GlobTree.Proofs.Parser.Draft
import GlobTree.Proofs.Text
import GlobTree.Proofs.Tree.Forest
import GlobTree.Proofs.Tree.Spine
import GlobTree.Proofs.Tree.Order
import GlobTree.Script.Drawings
import GlobTree.Script.Handlers
import GlobTree.Settings
import GlobTree.Proofs.Parser.Growth
import GlobTree.Proofs.Parser.Turns
import GlobTree.Proofs.Parser.Work
import GlobTree.Proofs.Parser.Table
import GlobTree.Proofs.Parser.Pieces
import GlobTree.Proofs.Parser.Groups
import GlobTree.Proofs.Parser.Keeping
import GlobTree.Proofs.Parser.Plain
import GlobTree.Proofs.Parser.ErrorModes
import GlobTree.Proofs.Extglob.Cut
import GlobTree.Proofs.Extglob.Scanner
import GlobTree.Proofs.Extglob.Documents
import GlobTree.Proofs.Extglob.Bars
import GlobTree.Proofs.Extglob.Composition
import GlobTree.Proofs.Positions
import GlobTree.Proofs.Strictness
import GlobTree.Proofs.Render.Draw
import GlobTree.Proofs.Extglob.RoundTrip
import GlobTree.Proofs.Extglob.Translation
import GlobTree.Proofs.Extglob.Brackets
import GlobTree.Proofs.Extglob.Reading
import GlobTree.Proofs.Regex.Heads
import GlobTree.Proofs.Regex.Searching
import GlobTree.Proofs.Extglob.Meaning
import GlobTree.Proofs.Parser.Invariants
import GlobTree.Proofs.Parser.History
import GlobTree.Proofs.Parser.OpenGroups
import GlobTree.Proofs.Parser.Progress
import GlobTree.Proofs.Render.Lookup
import GlobTree.Proofs.Render.Emissions
import GlobTree.Proofs.Render.Independence
import GlobTree.Proofs.Commands
import GlobTree.Proofs.Cursor
import GlobTree.Proofs.Tree.Appending
import GlobTree.Proofs.Parser.Marks
import GlobTree.Proofs.Extglob.Members
import GlobTree.Proofs.Extglob.Refusals
import GlobTree.Proofs.Parser.Priority
import GlobTree.Proofs.Tree.Made
import GlobTree.Proofs.Render.Walk
import GlobTree.Proofs.Parser.Moments
import GlobTree.Proofs.Parser.Places
import GlobTree.Proofs.Moments
import GlobTree.Proofs.Extglob.Unbalanced
import GlobTree.Proofs.Regex.Literals
import GlobTree.Proofs.Render.SourceTables
import GlobTree.Proofs.Tree.Traversal
import GlobTree.Proofs.Render.Visiting
