import GlobTree.Parser.State
import GlobTree.Proofs.Tree.Spine
/-!
# What a parser makes of the pieces of a text

A `Draft` is the part of a document that says what was read: the tree so far, with the place in the
innermost open group, and the problems that were noted. `Draft.put` is the whole effect of one
piece of text on it, and `Draft.finish` that of the end of the text.

`Draft.scan` cuts a text into pieces and puts them one after the other. How a text is cut may depend
on the innermost open group and on the text that is left, and on nothing else.
-/

namespace GlobTree

variable {K : Type}

/-- What a piece of text is good for. -/
inductive Use (K : Type)
  /-- A token, which may be a reason to complain. -/
  | token (kind : K) (complaint : Option String := none)
  /-- The opening token of a group, with a text in front or none. -/
  | opening (kind : K) (lead : Option String)
  /-- The closing token of a group, with a text that goes with it or none. -/
  | closing (kind : K) (trail : Option String)
  deriving DecidableEq, Repr

/-- A document that is being written. -/
structure Draft (K : Type) where
  zipper : Zipper (Entry K) := {}
  notes : Array Diagnostic := #[]
  deriving DecidableEq, Repr

namespace Draft

/-- The kind of the innermost open group. -/
def innermost? (draft : Draft K) : Option K :=
  draft.zipper.outer.head?.bind (·.label.role.kind?)

/-- The entry of a piece of text. -/
def entryOf (role : Role K) (raw : List Char) (place : Location) (label : String) : Entry K where
  role := role
  raw := String.ofList raw
  span := .covering place raw label

/-- The entry of a group. -/
def groupOf (kind : K) (lead : Option String) (place : Location) (label : String) : Entry K where
  role := .group kind
  raw := ""
  lead := lead
  span := .point place label

/-- Puts a piece of text that stands at a place. -/
def put [DecidableEq K] (draft : Draft K) (options : ParserOptions) (place : Location)
    (use : Use K) (raw : List Char) : Except (ParseError K) (Draft K) :=
  let label := options.sourceLabel
  match use with
  | .token kind none =>
    .ok { draft with zipper := draft.zipper.add (entryOf (.token kind) raw place label) }
  | .token kind (some complaint) =>
    let after := place.advance raw
    match options.errorMode with
    | .collect => .ok
      { zipper := draft.zipper.add (entryOf (.token kind) raw place label)
        notes := draft.notes.push ⟨complaint, after, label⟩ }
    | .throw => .error (.at (.diagnostic complaint) label after)
  | .opening kind lead =>
    let zipper := draft.zipper.descend (groupOf kind lead place label)
    .ok { draft with zipper := zipper.add (entryOf (.opening kind) raw place label) }
  | .closing kind trail =>
    if draft.innermost? = some kind then
      let zipper :=
        draft.zipper.add { entryOf (.closing kind) raw place label with trail := trail }
      .ok { draft with zipper := zipper.ascend }
    else .error (.at (.unbalancedClose kind (String.ofList raw) draft.innermost?) label place)

/-- The kind of the innermost open group and the place where it starts. -/
def unclosed? (draft : Draft K) : Option (K × Location) :=
  draft.zipper.outer.head?.bind fun level =>
    level.label.role.kind?.map fun kind => (kind, level.label.span.start)

/-- The trees of the finished document, of which the last is the end of the text. In strict mode,
no group may be open. -/
def finish (draft : Draft K) (options : ParserOptions) (place : Location) :
    Except (ParseError K) (Forest (Entry K)) :=
  let label := options.sourceLabel
  match options.strict, draft.unclosed? with
  | true, some (kind, start) => .error (.at (.unterminated kind) label start)
  | _, _ => .ok (draft.zipper.forest ++ .leaf ⟨.eos, "", none, none, .point place label⟩)

/-- A way to cut a text. Given the kind of the innermost open group and the text from its first
character on, it says what the next piece is good for and how many more characters it has. -/
abbrev Cut (K : Type) := Option K → Char → List Char → Option (Use K × Nat)

/-- Cuts a text and puts the pieces, from a place on. The result has the place at its end. -/
def scan [DecidableEq K] (cut : Cut K) (options : ParserOptions) (draft : Draft K)
    (place : Location) (text : List Char) : Except (ParseError K) (Draft K × Location) :=
  match text with
  | [] => .ok (draft, place)
  | c :: cs =>
    match cut draft.innermost? c cs with
    | none => .error (.at (.noHandler c) options.sourceLabel place)
    | some (use, more) =>
      let raw := c :: cs.take more
      match draft.put options place use raw with
      | .ok draft => draft.scan cut options (place.advance raw) (cs.drop more)
      | .error error => .error error
termination_by text.length
decreasing_by
  simp only [List.length_drop, List.length_cons]
  omega

end Draft

end GlobTree
