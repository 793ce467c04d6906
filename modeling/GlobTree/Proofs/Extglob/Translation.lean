import GlobTree.Proofs.Extglob.Documents
import GlobTree.Proofs.Render.Draw
import GlobTree.Proofs.Results
/-!
# Patterns as regular expressions, read off the tree

`translate` is the regular expression of a forest, by recursion on the trees, or the reason why there
is none. It needs to know the kind of the group around a tree: a comma means something in braces, and
in brackets there are only members.

The renderer for regular expressions writes just this (`render_regex`). In a drawing one part is
written after the other, and so are the parts of a translation (`Draws.bind`).
-/

namespace GlobTree.Extglob

open Renderer

/-! ## The translation -/

/-- The characters that a token of literal text is written for. -/
def literal (kind : Kind) (raw : List Char) : List Char :=
  match kind with
  | .escape => unescape raw
  | .quoted => unescape raw.tail.dropLast
  | _ => raw

/-- The regular expression of a token outside of brackets. -/
def tokenRegex (inside : Option Kind) (kind : Kind) (raw : List Char) : List Char :=
  match kind with
  | .star => ['[', '^', '/', ']', '*']
  | .globstar => ['.', '*']
  | .qmark => ['[', '^', '/', ']']
  | .slash => ['/']
  | .pipe => ['|']
  | .comma => if inside = some .brace then ['|'] else [',']
  | .text | .escape | .quoted => escapeText (literal kind raw)
  | .paren | .brace | .bracket => []

/-- The regular expression of a closed group, or why it has none. -/
def groupRegex (entry : Entry Kind) (kind : Kind) (roots : List (Entry Kind))
    (contents : Except Refusal (List Char)) : Except Refusal (List Char) :=
  match kind with
  | .bracket =>
    if roots.all (·.role.isDelimiter) then .error (.emptyBracket entry.span)
    else contents.map fun text =>
      (if entry.lead.isSome then ['[', '^'] else ['[']) ++ (text ++ [']'])
  | .paren =>
    match quantifier? entry.lead with
    | none => .error (.inexpressible (entry.lead.getD "") entry.span)
    | some quantifier =>
      contents.map fun text => ['(', '?', ':'] ++ (text ++ ([')'] ++ quantifier.toList))
  | _ => contents.map fun text => ['(', '?', ':'] ++ (text ++ [')'])

/-- The regular expression of a tree in a group of a kind, or why it has none. The contents of the
tree have one that depends on the tree's own kind. -/
def treeRegex (inside : Option Kind) (entry : Entry Kind) (roots : List (Entry Kind))
    (contents : Kind → Except Refusal (List Char)) : Except Refusal (List Char) :=
  match entry.role with
  | .token kind =>
    if inside = some .bracket then .ok (escapeClass (literal kind entry.raw.toList))
    else .ok (tokenRegex inside kind entry.raw.toList)
  | .group kind =>
    if inside = some .bracket then .error (.unexpected entry.role entry.span)
    else if roots.getLast?.map (·.role) = some (.closing kind) then
      groupRegex entry kind roots (contents kind)
    else .error (.unclosed (some kind) entry.span)
  | _ => .ok []

/-- The regular expression of a forest in a group of a kind, or why it has none. -/
def translate (inside : Option Kind) : Forest (Entry Kind) → Except Refusal (List Char)
  | .nil => .ok []
  | .cons entry below rest => do
    let first ← treeRegex inside entry below.roots fun kind => translate (some kind) below
    let others ← translate inside rest
    return first ++ others

/-- A forest with a translation is translated tree by tree. -/
theorem exists_of_translate_cons {inside : Option Kind} {entry : Entry Kind}
    {below rest : Forest (Entry Kind)} {text : List Char}
    (h : translate inside (.cons entry below rest) = .ok text) :
    ∃ first others, treeRegex inside entry below.roots (fun kind => translate (some kind) below) =
      .ok first ∧ translate inside rest = .ok others ∧ text = first ++ others := by
  rw [translate] at h
  obtain ⟨first, hfirst, h⟩ := bind_eq_ok_iff.1 h
  obtain ⟨others, hothers, h⟩ := bind_eq_ok_iff.1 h
  exact ⟨first, others, hfirst, hothers, (Except.ok.inj h).symm⟩

/-! ## Drawings -/

section Draws

variable {document : Document Kind}
  {call : NodeId → Array NodeId → Nat → Canvas → Except (RenderStop Kind) Unit × Canvas}

/-- What became of a canvas: a text was written on it, or there was a refusal. -/
def Writes (before : Canvas) (result : Except (RenderStop Kind) Unit × Canvas) :
    Except Refusal (List Char) → Prop
  | .ok text => result.1 = .ok () ∧ result.2.output = before.output ++ String.ofList text
  | .error refusal => result.1 = .error (.failed (.handler refusal.message))

/-- What a drawing does is to write a text or to refuse. -/
def Draws (document : Document Kind)
    (call : NodeId → Array NodeId → Nat → Canvas → Except (RenderStop Kind) Unit × Canvas)
    (drawing : Drawing Kind Unit) (expected : Except Refusal (List Char)) : Prop :=
  ∀ canvas, Writes canvas (draw document call drawing canvas) expected

/-- **One text after the other.** -/
theorem Draws.bind {first next : Drawing Kind Unit} {a b : Except Refusal (List Char)}
    (hfirst : Draws document call first a) (hnext : Draws document call next b) :
    Draws document call (first.bind fun _ => next) (do return (← a) ++ (← b)) := by
  intro canvas
  have hf := hfirst canvas
  rw [draw_bind]
  generalize draw document call first canvas = result at hf
  obtain ⟨outcome, middle⟩ := result
  cases a with
  | error refusal =>
    obtain rfl : outcome = _ := hf
    rfl
  | ok text =>
    obtain ⟨houtcome, houtput⟩ := hf
    obtain rfl : outcome = _ := houtcome
    have hn := hnext middle
    cases b with
    | error refusal => exact hn
    | ok more =>
      refine ⟨hn.1, ?_⟩
      have hmiddle : middle.output = canvas.output ++ String.ofList text := houtput
      rw [hn.2, hmiddle, String.append_assoc, ← String.ofList_append]

/-- A text that is written for certain comes in front. -/
theorem Draws.prepend {first next : Drawing Kind Unit} {text : List Char}
    {b : Except Refusal (List Char)} (hfirst : Draws document call first (.ok text))
    (hnext : Draws document call next b) :
    Draws document call (first.bind fun _ => next) (b.map (text ++ ·)) := by
  have h := hfirst.bind hnext
  cases b <;> exact h

/-- What draws nothing makes no difference. -/
theorem Draws.after {first next : Drawing Kind Unit} {b : Except Refusal (List Char)}
    (hfirst : Draws document call first (.ok [])) (hnext : Draws document call next b) :
    Draws document call (first.bind fun _ => next) b := by
  have h := hfirst.prepend hnext
  cases b <;> exact h

/-- What comes after a refusal does not matter. -/
theorem Draws.refused {first : Drawing Kind Unit} {refusal : Refusal}
    (hfirst : Draws document call first (.error refusal)) (next : Unit → Drawing Kind Unit) :
    Draws document call (first.bind next) (.error refusal) := by
  intro canvas
  have hf := hfirst canvas
  rw [draw_bind]
  generalize draw document call first canvas = result at hf
  obtain ⟨outcome, after⟩ := result
  obtain rfl : outcome = _ := hf
  rfl

theorem draws_pure : Draws document call (.pure ()) (.ok []) :=
  fun _ => ⟨rfl, String.append_empty.symm⟩

theorem draws_write (text : List Char) (node : Node Kind) :
    Draws document call (.write (String.ofList text) node) (.ok text) :=
  fun _ => ⟨rfl, Canvas.output_emit ..⟩

theorem draws_refuse (refusal : Refusal) :
    Draws document call (refuse refusal) (.error refusal) :=
  fun _ => rfl

/-- What is looked up first changes nothing. -/
theorem Draws.of_look {α : Type} {first : Drawing Kind α} {value : α}
    {next : α → Drawing Kind Unit} {a : Except Refusal (List Char)}
    (hfirst : ∀ canvas, draw document call first canvas = (.ok value, canvas))
    (hnext : Draws document call (next value) a) : Draws document call (first.bind next) a := by
  intro canvas
  rw [draw_bind_of_ok document call (hfirst canvas) next]
  exact hnext canvas

/-! ## Members of brackets -/

/-- What is drawn for the children of brackets is their translation. -/
theorem draws_members {f : Forest (Entry Kind)} {above : Entry Kind}
    (bracket : above.role = .group .bracket) (fits : f.Linked Fits (some above))
    {nodes : List (Node Kind)} (hroots : nodes.map Node.entry = f.roots) :
    Draws document call (Drawing.forEach nodes drawMember) (translate (some .bracket) f) := by
  induction f generalizing nodes with
  | nil =>
    obtain rfl : nodes = [] := List.map_eq_nil_iff.1 hroots
    exact draws_pure
  | cons entry below rest _ ih =>
    obtain ⟨⟨-, hrole⟩, -, hrest⟩ := fits
    obtain ⟨node, nodes, rfl, rfl, hnodes⟩ := List.map_eq_cons_iff.1 hroots
    have hmember : Draws document call (drawMember node)
        (treeRegex (some .bracket) node.entry below.roots fun kind => translate (some kind) below) := by
      have hfits := hrole ⟨above, rfl, bracket⟩
      have hentry : node.entry.role = node.role := rfl
      simp only [List.mem_cons, List.not_mem_nil, or_false] at hfits
      rcases hfits with h | h | h | h <;>
        rw [hentry] at h <;> simp only [drawMember, treeRegex, hentry, h, if_true]
      · exact draws_write _ _
      · exact draws_write _ _
      · exact draws_pure
      · exact draws_pure
    exact hmember.bind (ih hrest hnodes)

end Draws

/-! ## Nodes -/

section Nodes

variable (options : RenderOptions) {document : Document Kind}
  {call : NodeId → Array NodeId → Nat → Canvas → Except (RenderStop Kind) Unit × Canvas}

/-- The drawing functions of the renderer for regular expressions. -/
abbrev regexFunctions : List (Role Kind × DrawFunction Kind) := (regexRenderer options).functions

/-- The text between the quotes. -/
theorem inner?_quoted (inside : List Char) :
    inner? (String.ofList ('"' :: (inside ++ ['"']))) = some inside := by
  have hslice := sliceBytes?_append ['"'] inside ['"']
  have hsize : (String.ofList ('"' :: (inside ++ ['"']))).utf8ByteSize - 1 =
      byteLength ['"'] + byteLength inside := by
    rw [utf8ByteSize_ofList, byteLength_cons, byteLength_append]
    show 1 + (byteLength inside + 1) - 1 = 1 + byteLength inside
    omega
  have hempty : (String.ofList ('"' :: (inside ++ ['"']))).isEmpty = false := by
    rw [String.isEmpty_eq_false_iff]
    simp [String.ofList_eq_empty_iff]
  rw [inner?, hempty, hsize, String.toList_ofList]
  exact hslice

/-- The group around a node is of a kind, or there is none. -/
def StandsIn (document : Document Kind) (node : Node Kind) (inside : Option Kind) : Prop :=
  ∃ parent above, node.parent = some parent ∧ document.node? parent = some above ∧
    (above.role = .group .brace ↔ inside = some .brace)

variable {inside : Option Kind}

theorem draws_token {node : Node Kind} {kind : Kind}
    (hrole : node.role = .token kind) (shaped : Shaped node.entry)
    (stands : StandsIn document node inside) (siblings : Array NodeId) (index : Nat) :
    ∃ function, function? (regexFunctions options) (.token kind) = some function ∧
      Draws document call (function node siblings index)
        (.ok (tokenRegex inside kind node.raw.toList)) := by
  simp only [Shaped, Node.entry, hrole] at shaped
  cases kind with
  | escape => exact ⟨_, rfl, draws_write _ _⟩
  | quoted =>
    obtain ⟨content, -, hraw, -⟩ := shaped
    have hinner : inner? node.raw = some content := by rw [hraw, inner?_quoted]
    have hliteral : literal .quoted node.raw.toList = unescape content := by
      rw [hraw, String.toList_ofList, literal, List.tail_cons, List.dropLast_concat]
    refine ⟨_, rfl, ?_⟩
    have hdraw : Draws document call (drawLiteral (unescape content) node)
      (.ok (escapeText (unescape content))) := draws_write _ _
    rw [tokenRegex, hliteral]
    exact Draws.of_look (fun _ => by rw [hinner]; rfl) hdraw
  | globstar => exact ⟨_, rfl, draws_write ['.', '*'] _⟩
  | star => exact ⟨_, rfl, draws_write ['[', '^', '/', ']', '*'] _⟩
  | qmark => exact ⟨_, rfl, draws_write ['[', '^', '/', ']'] _⟩
  | slash => exact ⟨_, rfl, draws_write ['/'] _⟩
  | comma =>
    obtain ⟨parent, above, hparent, habove, hbrace⟩ := stands
    refine ⟨_, rfl, ?_⟩
    have hlook (canvas : Canvas) :
        draw document call (Drawing.node parent) canvas = (.ok above, canvas) := by
      rw [Drawing.node, draw, habove]
      rfl
    show Draws document call (drawComma node) _
    rw [drawComma, hparent]
    refine Draws.of_look hlook ?_
    by_cases h : inside = some .brace
    · rw [if_pos (hbrace.2 h), tokenRegex, if_pos h]
      exact draws_write ['|'] node
    · rw [if_neg fun hrole => h (hbrace.1 hrole), tokenRegex, if_neg h]
      exact draws_write [','] node
  | pipe => exact ⟨_, rfl, draws_write ['|'] _⟩
  | text => exact ⟨_, rfl, draws_write _ _⟩
  | paren | brace | bracket => simp [Kind.tokens] at shaped

omit options in
theorem draws_requireClosed {node : Node Kind} {kind : Kind} {id : NodeId}
    {siblings : Array NodeId} {index : Nat} {closed : Bool} (hkind : node.role = .group kind)
    (hid : siblings[index]? = some id) (hclosed : document.isClosed? id = some closed) :
    Draws document call (requireClosed node siblings index)
      (if closed then .ok [] else .error (.unclosed (some kind) node.span)) := by
  have hsibling (canvas : Canvas) :
      draw document call (Drawing.ofOption siblings[index]?) canvas = (.ok id, canvas) := by
    rw [hid]
    rfl
  have hlook (canvas : Canvas) :
      draw document call (.look fun document _ => Drawing.ofOption (document.isClosed? id))
        canvas = (.ok closed, canvas) := by
    rw [draw, hclosed]
    rfl
  refine Draws.of_look hsibling (Draws.of_look hlook ?_)
  cases closed with
  | true => exact draws_pure
  | false =>
    have hrefuse : Draws document call (refuse (.unclosed node.role.kind? node.span)) _ :=
      draws_refuse (.unclosed node.role.kind? node.span)
    rw [hkind] at hrefuse ⊢
    exact hrefuse

/-- Contents in a group that captures nothing, and something after it. -/
theorem draws_wrapped {node : Node Kind}
    {contents : Except Refusal (List Char)} {last : Drawing Kind Unit} {after : List Char}
    (hcontents : Draws document call (Drawing.contents node) contents)
    (hlast : Draws document call last (.ok after)) :
    Draws document call
      ((Drawing.write "(?:" node).bind fun _ => (Drawing.contents node).bind fun _ =>
        (Drawing.write ")" node).bind fun _ => last)
      (contents.map fun text => ['(', '?', ':'] ++ (text ++ ([')'] ++ after))) := by
  have hopen : Draws document call (.write "(?:" node) (.ok ['(', '?', ':']) := draws_write _ node
  have hclose : Draws document call (.write ")" node) (.ok [')']) := draws_write _ node
  have h := hopen.prepend (hcontents.bind (hclose.prepend hlast))
  cases contents <;> exact h

theorem draws_paren {node : Node Kind}
    {contents : Except Refusal (List Char)}
    (hcontents : Draws document call (Drawing.contents node) contents) :
    Draws document call
      (match quantifier? node.lead with
      | none => refuse (.inexpressible (node.lead.getD "") node.span)
      | some quantifier =>
        (Drawing.write "(?:" node).bind fun _ => (Drawing.contents node).bind fun _ =>
          (Drawing.write ")" node).bind fun _ => Drawing.write quantifier node)
      (match quantifier? node.lead with
      | none => .error (.inexpressible (node.lead.getD "") node.span)
      | some quantifier =>
        contents.map fun text => ['(', '?', ':'] ++ (text ++ ([')'] ++ quantifier.toList))) := by
  cases quantifier? node.lead with
  | none => exact draws_refuse _
  | some quantifier =>
    have hlast : Draws document call (.write quantifier node) (.ok quantifier.toList) := by
      have h : Draws document call (.write (String.ofList quantifier.toList) node) _ :=
        draws_write quantifier.toList node
      rwa [String.ofList_toList] at h
    exact draws_wrapped hcontents hlast

theorem draws_bracket {node : Node Kind} {id : Nat}
    {below : Forest (Entry Kind)} (hkind : node.role = .group .bracket)
    (hchildren : node.children.toList = below.ids (id + 1))
    (laid : below.LaidAt document.toArena id (id + 1)) (fits : below.Linked Fits (some node.entry)) :
    Draws document call
      ((Drawing.look fun document _ =>
          Drawing.ofOption (node.children.toList.mapM document.node?)).bind fun children =>
        let after (_ : Unit) : Drawing Kind Unit :=
          (Drawing.write (if node.lead.isSome then "[^" else "[") node).bind fun _ =>
            (Drawing.forEach children drawMember).bind fun _ => Drawing.write "]" node
        if children.all (·.role.isDelimiter) then (refuse (.emptyBracket node.span)).bind after
        else after ())
      (groupRegex node.entry .bracket below.roots (translate (some .bracket) below)) := by
  obtain ⟨nodes, hnodes, hroots⟩ := laid.mapM_node?
  have hlook (canvas : Canvas) :
      draw document call (.look fun document _ =>
        Drawing.ofOption (node.children.toList.mapM document.node?)) canvas = (.ok nodes, canvas) := by
    rw [draw, hchildren, show List.mapM document.node? (below.ids (id + 1)) = some nodes from hnodes]
    rfl
  have hall : nodes.all (·.role.isDelimiter) = below.roots.all (·.role.isDelimiter) := by
    rw [← hroots, List.all_map]
    rfl
  refine Draws.of_look hlook ?_
  rw [groupRegex]
  dsimp only
  rw [hall]
  split
  · exact (draws_refuse _).refused _
  · have hopen : Draws document call (.write (if node.lead.isSome then "[^" else "[") node)
        (.ok (if node.lead.isSome then ['[', '^'] else ['['])) := by
      cases node.lead.isSome <;> exact draws_write _ node
    have hclose : Draws document call (.write "]" node) (.ok [']']) := draws_write _ node
    have h := hopen.prepend ((draws_members hkind fits hroots).bind hclose)
    cases htranslate : translate (some .bracket) below <;> rw [htranslate] at h <;> exact h

/-- **A group is drawn if it is closed**, in the way that its kind says. -/
theorem draws_group {node : Node Kind} {kind : Kind} {id : Nat}
    {below : Forest (Entry Kind)} {siblings : Array NodeId} {index : Nat}
    (hnode : document.node? id = some node) (hkind : node.role = .group kind)
    (hgroups : kind ∈ Kind.groups) (hid : siblings[index]? = some id)
    (hchildren : node.children.toList = below.ids (id + 1))
    (laid : below.LaidAt document.toArena id (id + 1)) (fits : below.Linked Fits (some node.entry))
    (hcontents : kind ≠ .bracket →
      Draws document call (Drawing.contents node) (translate (some kind) below)) :
    ∃ function, function? (regexFunctions options) (.group kind) = some function ∧
      Draws document call (function node siblings index)
        (if below.roots.getLast?.map (·.role) = some (.closing kind) then
          groupRegex node.entry kind below.roots (translate (some kind) below)
        else .error (.unclosed (some kind) node.span)) := by
  have hclosed : Draws document call (requireClosed node siblings index) _ :=
    draws_requireClosed hkind hid (Arena.isClosed?_of_laid hnode hkind hchildren laid)
  by_cases h : below.roots.getLast?.map (·.role) = some (.closing kind)
  · simp only [h, decide_true, if_true] at hclosed ⊢
    simp only [Kind.groups, List.mem_cons, List.not_mem_nil, or_false] at hgroups
    rcases hgroups with rfl | rfl | rfl
    · refine ⟨_, rfl, hclosed.after ?_⟩
      rw [groupRegex]
      exact draws_paren (hcontents (by simp))
    · refine ⟨_, rfl, hclosed.after ?_⟩
      exact draws_wrapped (hcontents (by simp)) draws_pure
    · refine ⟨_, rfl, hclosed.after ?_⟩
      exact draws_bracket hkind hchildren laid fits
  · rw [if_neg h]
    simp only [h, decide_false, Bool.false_eq_true, if_false] at hclosed
    simp only [Kind.groups, List.mem_cons, List.not_mem_nil, or_false] at hgroups
    rcases hgroups with rfl | rfl | rfl <;> exact ⟨_, rfl, hclosed.refused _⟩

/-- Calling for a node draws what its function does. -/
theorem draws_call_of_function {node : Node Kind} {role : Role Kind} {id : NodeId}
    {siblings : Array NodeId} {index n : Nat} {function : DrawFunction Kind}
    {expected : Except Refusal (List Char)} (hnode : document.node? id = some node)
    (hrole : node.role = role) (hfunction : function? (regexFunctions options) role = some function)
    (hdraws : Draws document (renderNode document (regexFunctions options) n)
      (function node siblings index) expected) :
    Draws document (renderNode document (regexFunctions options) (n + 1))
      (Drawing.call id siblings index) expected := by
  intro canvas
  rw [draw_call, renderNode, hnode]
  simp only [hrole, hfunction]
  exact hdraws canvas

/-- **A node is drawn as its tree is translated.** Nothing is drawn for the delimiters of groups. -/
theorem draws_tree {node : Node Kind} {id n : Nat} {below : Forest (Entry Kind)}
    {siblings : Array NodeId} {index : Nat} (hnode : document.node? id = some node)
    (shaped : Shaped node.entry) (outside : inside ≠ some .bracket)
    (stands : StandsIn document node inside) (hid : siblings[index]? = some id)
    (hchildren : node.children.toList = below.ids (id + 1))
    (laid : below.LaidAt document.toArena id (id + 1)) (fits : below.Linked Fits (some node.entry))
    (hcontents : ∀ kind, node.role = .group kind → kind ≠ .bracket →
      Draws document (renderNode document (regexFunctions options) n) (Drawing.contents node)
        (translate (some kind) below)) :
    Draws document (renderNode document (regexFunctions options) (n + 1))
      ((Drawing.node id).bind fun below =>
        if below.role.isDelimiter then .pure () else Drawing.call id siblings index)
      (treeRegex inside node.entry below.roots fun kind => translate (some kind) below) := by
  have hlook (canvas : Canvas) :
      draw document (renderNode document (regexFunctions options) (n + 1)) (Drawing.node id) canvas =
        (.ok node, canvas) := by
    rw [Drawing.node, draw, hnode]
    rfl
  have hrole : node.entry.role = node.role := rfl
  refine Draws.of_look hlook ?_
  cases hr : node.role with
  | root =>
    rw [Shaped, hrole, hr] at shaped
    cases shaped
  | eos =>
    rw [treeRegex, hrole, hr]
    exact draws_call_of_function options hnode hr rfl draws_pure
  | opening kind | closing kind =>
    rw [treeRegex, hrole, hr]
    exact draws_pure
  | token kind =>
    obtain ⟨function, hfunction, hdraws⟩ := draws_token options hr shaped stands siblings index
    rw [treeRegex, hrole, hr]
    simp only [if_neg outside]
    exact draws_call_of_function options hnode hr hfunction hdraws
  | group kind =>
    obtain ⟨function, hfunction, hdraws⟩ := draws_group options hnode hr (shaped.mem_groups hr) hid
      hchildren laid fits (hcontents kind hr)
    rw [treeRegex, hrole, hr]
    simp only [if_neg outside]
    exact draws_call_of_function options hnode hr hfunction hdraws

/-- **A forest is drawn as its translation.** -/
theorem draws_forest {f : Forest (Entry Kind)} {above : Option (Entry Kind)} {parent id : Nat}
    (laid : f.LaidAt document.toArena parent id) (placed : f.Linked Draft.Placed above)
    (fits : f.Linked Fits above) (outside : inside ≠ some .bracket)
    (hparent : ∃ node, document.node? parent = some node ∧
      (node.role = .group .brace ↔ inside = some .brace))
    {n : Nat} (hn : f.size ≤ n) (siblings : Array NodeId) (index : Nat)
    (hsiblings : siblings.toList.drop index = f.ids id) :
    Draws document (renderNode document (regexFunctions options) n)
      (Drawing.forEach ((f.ids id).zipIdx index) fun (child, index) =>
        (Drawing.node child).bind fun below =>
          if below.role.isDelimiter then .pure () else Drawing.call child siblings index)
      (translate inside f) := by
  induction f generalizing parent id above inside n siblings index with
  | nil => exact draws_pure
  | cons label below rest ihb ihr =>
    obtain ⟨⟨node, hnode, rfl, hup, hchildren⟩, hbelow, hrest⟩ := laid
    obtain ⟨hplace, pbelow, prest⟩ := placed
    obtain ⟨⟨hshaped, -⟩, fbelow, frest⟩ := fits
    rw [Forest.size] at hn
    obtain ⟨n, rfl⟩ : ∃ m, n = m + 1 := ⟨n - 1, by omega⟩
    have hid : siblings[index]? = some id := by
      rw [← Array.getElem?_toList, ← List.head?_drop, hsiblings]
      rfl
    have hcontents (kind : Kind) (hrole : node.role = .group kind) (hkind : kind ≠ .bracket) :
        Draws document (renderNode document (regexFunctions options) n) (Drawing.contents node)
          (translate (some kind) below) := by
      have houtside : some kind ≠ some Kind.bracket := fun h => hkind (Option.some.inj h)
      have habove : ∃ other, document.node? id = some other ∧
          (other.role = .group .brace ↔ some kind = some .brace) :=
        ⟨node, hnode, by rw [hrole, Role.group.injEq, Option.some.injEq]⟩
      have h := ihb hbelow pbelow fbelow houtside habove (by omega : below.size ≤ n)
        node.children 0 hchildren
      rwa [← hchildren] at h
    obtain ⟨above, hparent', hbrace⟩ := hparent
    have hfirst := draws_tree options hnode hshaped outside ⟨parent, above, hup, hparent', hbrace⟩ hid
      hchildren hbelow fbelow hcontents
    have hnext : siblings.toList.drop (index + 1) = rest.ids (id + 1 + below.size) := by
      rw [← List.tail_drop, hsiblings]
      rfl
    rw [Forest.ids, List.zipIdx_cons, Drawing.forEach]
    exact hfirst.bind (ihr hrest prest frest outside ⟨above, hparent', hbrace⟩
      (by omega : rest.size ≤ n + 1) _ _ hnext)

/-- At the top there are no delimiters to be left out. -/
theorem draw_children_root {forest : Forest (Entry Kind)} {root : Node Kind} {n : Nat}
    (hchildren : root.children.toList = forest.ids 1)
    (laid : forest.LaidAt document.toArena rootId 1) (placed : forest.Linked Draft.Placed none)
    (canvas : Canvas) :
    draw document (renderNode document (regexFunctions options) n) (Drawing.children root) canvas =
      draw document (renderNode document (regexFunctions options) n) (Drawing.contents root)
        canvas := by
  refine draw_forEach_congr _ _ (fun ⟨child, index⟩ hchild canvas => ?_) canvas
  have hid : child ∈ forest.ids 1 := by
    rw [Drawing.indexed, hchildren] at hchild
    exact List.fst_mem_of_mem_zipIdx hchild
  obtain ⟨node, hnode, hroot⟩ := laid.exists_node hid
  have hdelimiter : node.role.isDelimiter = false := by
    rcases placed.of_mem_roots _ hroot with ⟨kind, h⟩ | ⟨kind, h⟩ | h <;>
      rw [show node.role = _ from h] <;> rfl
  have hlook : draw document (renderNode document (regexFunctions options) n) (Drawing.node child)
      canvas = (.ok node, canvas) := by
    rw [Drawing.node, draw, hnode]
    rfl
  rw [draw_bind_of_ok _ _ hlook, hdelimiter]
  rfl

/-- **Rendering a document gives the translation of its forest.** -/
theorem render_regex {forest : Forest (Entry Kind)} {text : List Char} {label : String}
    (parsed : Parsed document forest text label) :
    ((regexRenderer options).render document).1.map Rendered.output =
      ((translate none forest).map String.ofList).mapError fun refusal =>
        .failed (.handler refusal.message) := by
  obtain ⟨root, hroot, hrole, hchildren, hlaid, hsize⟩ := parsed.root
  have hdepth : forest.size ≤ walkDepth document := by
    rw [walkDepth, hsize]
    omega
  have hparent : ∃ node, document.node? rootId = some node ∧
      (node.role = .group .brace ↔ (none : Option Kind) = some .brace) :=
    ⟨root, hroot, by simp [hrole]⟩
  have hforest := draws_forest options hlaid parsed.placed parsed.fits (by simp) hparent hdepth
    root.children 0 hchildren {}
  rw [← hchildren] at hforest
  have hnode : draw document (renderNode document (regexFunctions options)
      (walkDepth document)) (Drawing.node rootId) {} = (.ok root, {}) := by
    rw [Drawing.node, draw, hroot]
    rfl
  have hcanvas : renderCanvas document (regexFunctions options) =
      draw document (renderNode document (regexFunctions options) (walkDepth document))
        (Drawing.contents root) {} := by
    rw [renderCanvas]
    simp only [draw_bind_of_ok _ _ hnode]
    exact draw_children_root options hchildren hlaid parsed.placed {}
  have hwrites : Writes {} (renderCanvas document (regexFunctions options)) (translate none forest) := by
    rw [hcanvas]
    exact hforest
  generalize hresult : renderCanvas document (regexFunctions options) = result at hwrites
  obtain ⟨outcome, canvas⟩ := result
  rw [render, hresult]
  cases htranslate : translate none forest with
  | error refusal =>
    rw [htranslate] at hwrites
    obtain rfl : outcome = _ := hwrites
    rfl
  | ok text =>
    rw [htranslate] at hwrites
    obtain ⟨hok, houtput⟩ := hwrites
    obtain rfl : outcome = _ := hok
    have hempty : ({} : Canvas).output ++ String.ofList text = String.ofList text :=
      String.empty_append
    exact congrArg Except.ok (houtput.trans hempty)

end Nodes

/-- **What a pattern is as a regular expression**: the translation of the forest that is parsed in
strict mode. -/
theorem toRegex_eq (pattern : String) :
    toRegex pattern =
      ((parse pattern (ParserOptions.withStrict {} true)).mapError .parse).bind fun document =>
        ((translate none document.toArena.forest).map String.ofList).mapError fun refusal =>
          .render (.failed (.handler refusal.message)) := by
  rw [toRegex]
  cases hparse : parse pattern (ParserOptions.withStrict {} true) with
  | error stop => rfl
  | ok document =>
    have hrender := render_regex {} (parsed_of_parse hparse)
    show (((regexRenderer {}).render document).1.mapError Failure.render).bind
      (fun rendered => .ok rendered.output) = ((translate none _).map String.ofList).mapError _
    generalize ((regexRenderer {}).render document).1 = result at hrender
    cases htranslate : translate none document.toArena.forest with
    | error refusal =>
      rw [htranslate] at hrender
      cases result with
      | error stop =>
        obtain rfl := Except.error.inj hrender
        rfl
      | ok rendered => cases hrender
    | ok text =>
      rw [htranslate] at hrender
      cases result with
      | error stop => cases hrender
      | ok rendered => exact congrArg Except.ok (Except.ok.inj hrender)

/-- A pattern with a regular expression is parsed and has a translation. -/
theorem exists_of_toRegex {pattern regex : String} (h : toRegex pattern = .ok regex) :
    ∃ document, parse pattern (ParserOptions.withStrict {} true) = .ok document ∧
      translate none document.toArena.forest = .ok regex.toList := by
  rw [toRegex_eq] at h
  cases hparse : parse pattern (ParserOptions.withStrict {} true) with
  | error stop =>
    rw [hparse] at h
    cases h
  | ok document =>
    rw [hparse] at h
    cases htranslate : translate none document.toArena.forest with
    | error refusal =>
      simp only [Except.mapError, Except.bind, htranslate, Except.map] at h
      cases h
    | ok text =>
      simp only [Except.mapError, Except.bind, htranslate, Except.map] at h
      obtain rfl := Except.ok.inj h
      exact ⟨document, rfl, by rw [htranslate, String.toList_ofList]⟩

end GlobTree.Extglob
