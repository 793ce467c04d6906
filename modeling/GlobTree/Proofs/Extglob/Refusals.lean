import GlobTree.Proofs.Extglob.Translation
import GlobTree.Proofs.Parser.Table
import GlobTree.Proofs.Tree.Order
/-!
# What has no regular expression

`objection?` tells what there is against a node of a document: that it is a group which is not
closed, or which is negated, or which has nothing in its brackets. Rendering a document that was
parsed fails with the first objection in the order of the document, and in no other way
(`render_eq_error_iff`).

* The renderer walks through the forest and stops where a tree has no translation, so that a
  translation fails with the first of the forest's `objections`, which come in preorder
  (`error?_translate`).
* The objections to a stored forest are those to the nodes with its numbers
  (`filterMap_objection?`).
-/

namespace GlobTree.Extglob

/-! ## Objections -/

/-- What there is against an entry, which may be that of a group without a closing token, and of one
with nothing but delimiters in it. That a group is not closed counts before all else. -/
def entryObjection? (entry : Entry Kind) (isOpen isHollow : Bool) : Option Refusal :=
  match entry.role with
  | .group kind =>
    if isOpen then some (.unclosed (some kind) entry.span)
    else match kind with
      | .paren =>
        if entry.lead = some "!" then some (.inexpressible "!" entry.span) else none
      | .bracket => if isHollow then some (.emptyBracket entry.span) else none
      | _ => none
  | _ => none

/-- Whether all children of a node are delimiters. -/
def isHollow (document : Document Kind) (node : Node Kind) : Bool :=
  node.children.all fun child => (document.node? child).any (·.role.isDelimiter)

/-- What there is against a node of a document. -/
def objection? (document : Document Kind) (id : NodeId) : Option Refusal :=
  (document.node? id).bind fun node =>
    entryObjection? node.entry (document.isUnclosed id) (isHollow document node)

/-- A group of a document cannot be written as a regular expression. -/
inductive Unwritable (document : Document Kind) (id : NodeId) : Prop
  /-- The group is not closed. -/
  | unclosed {node : Node Kind} {kind : Kind} (found : document.node? id = some node)
      (group : node.role = .group kind) (notClosed : document.isClosed? id = some false)
  /-- The group is negated. -/
  | negated {node : Node Kind} (found : document.node? id = some node)
      (group : node.role = .group .paren) (sign : node.lead = some "!")
  /-- There is nothing in the brackets. -/
  | hollow {node : Node Kind} (found : document.node? id = some node)
      (group : node.role = .group .bracket)
      (delimiters : ∀ child ∈ node.children, ∃ delimiter,
        document.node? child = some delimiter ∧ delimiter.role.isDelimiter = true)

theorem isHollow_iff {document : Document Kind} {node : Node Kind} :
    isHollow document node = true ↔ ∀ child ∈ node.children, ∃ delimiter,
      document.node? child = some delimiter ∧ delimiter.role.isDelimiter = true := by
  simp only [isHollow, Array.all_eq_true_iff_forall_mem, Option.any_eq_true]

theorem isSome_entryObjection?_iff {entry : Entry Kind} {isOpen isHollow : Bool} :
    (entryObjection? entry isOpen isHollow).isSome = true ↔
      isOpen = true ∧ Draft.IsGroup entry ∨ entry.role = .group .paren ∧ entry.lead = some "!" ∨
        entry.role = .group .bracket ∧ isHollow = true := by
  rw [entryObjection?, Draft.IsGroup]
  cases hrole : entry.role with
  | root | eos | token | opening | closing => simp
  | group kind =>
    cases isOpen with
    | true => simp
    | false =>
      cases kind with
      | paren => by_cases hlead : entry.lead = some "!" <;> simp [hlead]
      | bracket => cases isHollow <;> simp
      | _ => simp

/-- **There is an objection to the groups that cannot be written**, and to nothing else. -/
theorem isSome_objection?_iff {document : Document Kind} {id : NodeId} :
    (objection? document id).isSome = true ↔ Unwritable document id := by
  rw [objection?, Option.isSome_bind, Option.any_eq_true]
  constructor
  · rintro ⟨node, hnode, hobjection⟩
    rw [isSome_entryObjection?_iff, isHollow_iff] at hobjection
    rcases hobjection with ⟨hopen, kind, hrole⟩ | ⟨hrole, hlead⟩ | ⟨hrole, hchildren⟩
    · rw [Arena.isUnclosed, Bool.and_eq_true, beq_iff_eq] at hopen
      exact .unclosed hnode hrole hopen.2
    · exact .negated hnode hrole hlead
    · exact .hollow hnode hrole hchildren
  · intro h
    cases h with
    | @unclosed node kind hnode hrole hopen =>
      have hunclosed : document.isUnclosed id = true := by
        simp [Arena.isUnclosed, hnode, hrole, hopen]
      exact ⟨node, hnode, isSome_entryObjection?_iff.2 (.inl ⟨hunclosed, kind, hrole⟩)⟩
    | @negated node hnode hrole hlead =>
      exact ⟨node, hnode, isSome_entryObjection?_iff.2 (.inr (.inl ⟨hrole, hlead⟩))⟩
    | @hollow node hnode hrole hchildren =>
      have hhollow : isHollow document node = true := isHollow_iff.2 hchildren
      exact ⟨node, hnode, isSome_entryObjection?_iff.2 (.inr (.inr ⟨hrole, hhollow⟩))⟩

/-! ## Objections to a forest -/

/-- What there is against the trees of a forest, in preorder. -/
def objections : Forest (Entry Kind) → List Refusal
  | .nil => []
  | .cons entry below rest =>
    (entryObjection? entry (entry.isUnclosed below) (below.roots.all (·.role.isDelimiter))).toList ++
      (objections below ++ objections rest)

section Stored

variable {document : Document Kind} {f : Forest (Entry Kind)} {parent id : Nat}

/-- Delimiters are found under the numbers of a stored forest if it has nothing else at its top. -/
theorem all_ids_eq (laid : f.LaidAt document.toArena parent id) :
    (f.ids id).all (fun child => (document.node? child).any (·.role.isDelimiter)) =
      f.roots.all (·.role.isDelimiter) := by
  induction f generalizing id with
  | nil => rfl
  | cons entry below rest _ ih =>
    obtain ⟨⟨node, hnode, rfl, -, -⟩, -, hrest⟩ := laid
    rw [Forest.ids, Forest.roots, List.all_cons, List.all_cons, ih hrest, hnode]
    rfl

theorem objection?_of_laid {node : Node Kind} {below : Forest (Entry Kind)}
    (hnode : document.node? id = some node) (hchildren : node.children.toList = below.ids (id + 1))
    (laid : below.LaidAt document.toArena id (id + 1)) :
    objection? document id = entryObjection? node.entry (node.entry.isUnclosed below)
      (below.roots.all (·.role.isDelimiter)) := by
  have hhollow : isHollow document node = below.roots.all (·.role.isDelimiter) := by
    rw [isHollow, ← Array.all_toList, hchildren, all_ids_eq laid]
  rw [objection?, hnode, Option.bind_some, Arena.isUnclosed_eq hnode hchildren laid, hhollow]

/-- **The objections to a stored forest are those to its nodes.** -/
theorem filterMap_objection? (laid : f.LaidAt document.toArena parent id) :
    (List.range' id f.size).filterMap (objection? document) = objections f := by
  induction f generalizing parent id with
  | nil => rfl
  | cons entry below rest ihb ihr =>
    obtain ⟨⟨node, hnode, rfl, -, hchildren⟩, hbelow, hrest⟩ := laid
    rw [Forest.range'_size_cons, List.filterMap_cons, List.filterMap_append, ihb hbelow, ihr hrest,
      objection?_of_laid hnode hchildren hbelow, objections]
    cases entryObjection? node.entry (node.entry.isUnclosed below) _ <;> rfl

end Stored

/-! ## Translations that fail -/

section Translations

variable {entry : Entry Kind} {below : Forest (Entry Kind)} {inside : Option Kind}

/-- Of the signs that parentheses can have in front, only the exclamation mark has no counterpart. -/
theorem Shaped.quantifier?_eq_none_iff (shaped : Shaped entry) (hrole : entry.role = .group .paren) :
    quantifier? entry.lead = none ↔ entry.lead = some "!" := by
  rw [Shaped, hrole] at shaped
  cases hlead : entry.lead with
  | none => simp [quantifier?]
  | some lead =>
    obtain ⟨c, hc, rfl⟩ := shaped lead hlead
    simp only [isSign, List.mem_cons, List.not_mem_nil, or_false, decide_eq_true_eq] at hc
    rcases hc with rfl | rfl | rfl | rfl | rfl <;> decide

/-- **A closed group has a translation if there is nothing against it** or against its contents. -/
theorem error?_groupRegex {kind : Kind} (shaped : Shaped entry) (hrole : entry.role = .group kind)
    (roots : List (Entry Kind)) (contents : Except Refusal (List Char)) :
    error? (groupRegex entry kind roots contents) =
      (entryObjection? entry false (roots.all (·.role.isDelimiter))).or (error? contents) := by
  rw [entryObjection?, hrole]
  cases kind with
  | bracket =>
    rw [groupRegex]
    cases roots.all (·.role.isDelimiter) <;> simp
  | paren =>
    have hsign := shaped.quantifier?_eq_none_iff hrole
    rw [groupRegex]
    cases hquantifier : quantifier? entry.lead with
    | none => simp [hsign.1 hquantifier]
    | some quantifier =>
      have hlead : entry.lead ≠ some "!" := fun h => by simp [hsign.2 h] at hquantifier
      simp [hlead]
  | _ => simp [groupRegex]

/-- **A tree has a translation if there is nothing against it** or against what is below it. -/
theorem error?_treeRegex {contents : Kind → Except Refusal (List Char)} (shaped : Shaped entry)
    (outside : Draft.IsGroup entry → inside ≠ some .bracket)
    (hcontents : ∀ kind, entry.role = .group kind →
      error? (contents kind) = (objections below).head?)
    (hbelow : ¬ Draft.IsGroup entry → below = .nil) :
    error? (treeRegex inside entry below.roots contents) =
      (entryObjection? entry (entry.isUnclosed below) (below.roots.all (·.role.isDelimiter))).or
        (objections below).head? := by
  cases hrole : entry.role with
  | group kind =>
    rw [treeRegex, hrole]
    simp only [if_neg (outside ⟨kind, hrole⟩)]
    rw [Entry.isUnclosed, hrole]
    split
    next hclosed =>
      rw [error?_groupRegex shaped hrole, hcontents kind hrole, hclosed]
      simp
    next hopen =>
      rw [entryObjection?, hrole]
      simp [hopen]
  | root | eos | token | opening | closing =>
    have hleaf : ¬ Draft.IsGroup entry := by
      rintro ⟨kind, hkind⟩
      cases hrole.symm.trans hkind
    rw [hbelow hleaf, treeRegex, entryObjection?, hrole]
    simp only [objections]
    first
      | rfl
      | split <;> rfl

/-- **A translation fails with the first objection**, and has no other errors. -/
theorem error?_translate {f : Forest (Entry Kind)} {above : Option (Entry Kind)}
    (placed : f.Linked Draft.Placed above) (fits : f.Linked Fits above)
    (hinside : inside = some .bracket → ∃ group ∈ above, group.role = .group .bracket) :
    error? (translate inside f) = (objections f).head? := by
  induction f generalizing above inside with
  | nil => rfl
  | cons entry below rest ihb ihr =>
    obtain ⟨-, pbelow, prest⟩ := placed
    obtain ⟨⟨hshaped, hmember⟩, fbelow, frest⟩ := fits
    -- A group would have no translation in brackets, but there are none.
    have houtside : Draft.IsGroup entry → inside ≠ some .bracket := by
      rintro ⟨kind, hkind⟩ hbracket
      have hrole := hmember (hinside hbracket)
      rw [hkind] at hrole
      simp at hrole
    have hcontents (kind : Kind) (hrole : entry.role = .group kind) :
        error? (translate (some kind) below) = (objections below).head? :=
      ihb pbelow fbelow fun h => ⟨entry, rfl, Option.some.inj h ▸ hrole⟩
    rw [translate, error?_append, ihr prest frest hinside, objections, List.head?_append,
      List.head?_append, ← Option.or_assoc, Option.head?_toList,
      error?_treeRegex hshaped houtside hcontents (Draft.eq_nil_of_placed pbelow)]

end Translations

/-! ## Messages -/

/-- How the message of a refusal begins. -/
def Refusal.beginning : Refusal → String
  | unclosed .. => "Unclosed "
  | inexpressible .. => "Cannot express '"
  | emptyBracket .. => "Empty bracket expression at "
  | unexpected .. => "Unexpected "

theorem Refusal.exists_message_eq (refusal : Refusal) :
    ∃ rest, refusal.message = refusal.beginning ++ rest := by
  unfold message
  cases refusal <;> simp only [String.append_assoc] <;> exact ⟨_, rfl⟩

/-- The message about a member of brackets that is no token is that of no other refusal. -/
theorem Refusal.exists_of_message_eq {refusal : Refusal} {role : Role Kind} {span : Span}
    (h : refusal.message = (unexpected role span).message) :
    ∃ role span, refusal = unexpected role span := by
  obtain ⟨rest, hrest⟩ := refusal.exists_message_eq
  obtain ⟨others, hothers⟩ := (unexpected role span).exists_message_eq
  have hletters := congrArg (·.toList.take 3) (hrest.symm.trans (h.trans hothers))
  cases refusal with
  | unexpected role span => exact ⟨role, span, rfl⟩
  | unclosed | inexpressible | emptyBracket => simp [beginning] at hletters

/-- Nothing is said against the members of brackets. -/
theorem message_ne_of_objection? {document : Document Kind} {id : NodeId} {refusal : Refusal}
    (h : objection? document id = some refusal) (role : Role Kind) (span : Span) :
    refusal.message ≠ (Refusal.unexpected role span).message := by
  intro hmessage
  obtain ⟨role, span, rfl⟩ := Refusal.exists_of_message_eq hmessage
  obtain ⟨node, -, hobjection⟩ := Option.bind_eq_some_iff.1 h
  rw [entryObjection?] at hobjection
  split at hobjection
  next kind _ =>
    split at hobjection
    · cases hobjection
    · cases kind <;> simp at hobjection
  next => cases hobjection

/-! ## Renderings that fail -/

/-- **Rendering a document fails with the first objection.** -/
theorem error?_render {document : Document Kind} {forest : Forest (Entry Kind)} {text : List Char}
    {label : String} (parsed : Parsed document forest text label) (options : RenderOptions) :
    error? ((regexRenderer options).render document).1 =
      (document.order.findSome? (objection? document)).map fun refusal =>
        .failed (.handler refusal.message) := by
  obtain ⟨_, -, -, -, hlaid, -⟩ := parsed.root
  have horder : document.order = List.range' 1 forest.size := parsed.spine.order_eq
  have hrender := congrArg error? (render_regex options parsed)
  rw [error?_map, error?_mapError, error?_map, error?_translate parsed.placed parsed.fits (by simp)]
    at hrender
  rw [hrender, ← List.head?_filterMap, horder, filterMap_objection? hlaid]

/-- A group that cannot be written is in the order of its document, as no group is the root. -/
theorem Unwritable.mem_order {document : Document Kind} {forest : Forest (Entry Kind)}
    {text : List Char} {label : String} (parsed : Parsed document forest text label) {id : NodeId}
    (h : Unwritable document id) : id ∈ document.order := by
  obtain ⟨root, hroot, hrole, -⟩ := parsed.root
  obtain ⟨node, kind, hnode, hkind⟩ :
      ∃ node kind, document.node? id = some node ∧ node.role = .group kind := by
    cases h with
    | unclosed hnode hgroup | negated hnode hgroup | hollow hnode hgroup =>
      exact ⟨_, _, hnode, hgroup⟩
  refine parsed.spine.mem_order hnode ?_
  rintro rfl
  obtain rfl := Option.some.inj (hnode.symm.trans hroot)
  cases hkind.symm.trans hrole

/-- **When a parsed pattern has no regular expression.** For every document that the parser returns,
whatever its options are and in whatever chunks the text came, rendering it stops just with the
first objection in the order of the document. So it only ever stops with the error of a drawing
function: every role has one, and none reaches out of bounds.

It stops if and only if there is a group that is not closed, or is negated, or has nothing in its
brackets, and it never stops over a member of brackets. -/
theorem render_eq_error_iff {parserOptions : ParserOptions} {chunks : List String}
    {document : Document Kind} (fed : ((parser parserOptions).feedAll chunks).1 = .ok ())
    (finished : ((parser parserOptions).feedAll chunks).2.finish.1 = .ok document)
    (options : RenderOptions) :
    let result := ((regexRenderer options).render document).1
    (∀ stop, result = .error stop ↔
      ∃ refusal, document.order.findSome? (objection? document) = some refusal ∧
        stop = .failed (.handler refusal.message)) ∧
    ((∃ stop, result = .error stop) ↔ ∃ id, Unwritable document id) ∧
    ∀ role span, result ≠ .error (.failed (.handler (Refusal.unexpected role span).message)) := by
  intro result
  have parsed := parsed_of_feedAll fed finished
  have hresult : error? result = _ := error?_render parsed options
  have hstop (stop : RenderStop Kind) : result = .error stop ↔
      ∃ refusal, document.order.findSome? (objection? document) = some refusal ∧
        stop = .failed (.handler refusal.message) := by
    rw [← error?_eq_some_iff, hresult, Option.map_eq_some_iff]
    simp only [eq_comm]
  refine ⟨hstop, ⟨?_, ?_⟩, ?_⟩
  · rintro ⟨stop, h⟩
    obtain ⟨refusal, hfirst, -⟩ := (hstop stop).1 h
    obtain ⟨id, -, hid⟩ := List.exists_of_findSome?_eq_some hfirst
    exact ⟨id, isSome_objection?_iff.1 (Option.isSome_of_eq_some hid)⟩
  · rintro ⟨id, hid⟩
    have hfirst : (document.order.findSome? (objection? document)).isSome = true :=
      List.findSome?_isSome_iff.2 ⟨id, hid.mem_order parsed, isSome_objection?_iff.2 hid⟩
    obtain ⟨refusal, hrefusal⟩ := Option.isSome_iff_exists.1 hfirst
    exact ⟨_, (hstop _).2 ⟨refusal, hrefusal, rfl⟩⟩
  · intro role span h
    obtain ⟨refusal, hfirst, hmessage⟩ := (hstop _).1 h
    obtain ⟨id, -, hid⟩ := List.exists_of_findSome?_eq_some hfirst
    simp only [RenderStop.failed.injEq, RenderError.handler.injEq] at hmessage
    exact message_ne_of_objection? hid role span hmessage.symm

/-- A pattern in two chunks, with a group of each kind that cannot be written. The first of them is
negated. -/
theorem render_eq_error_iff_negated :
    let fed := (parser {}).feedAll ["é!(a", ")[](b"]
    let refusal := Refusal.inexpressible "!" (.point ⟨2, 1, 2⟩ "string")
    fed.1 = .ok () ∧ ∃ document, fed.2.finish.1 = .ok document ∧
      ((regexRenderer {}).render document).1 = .error (.failed (.handler refusal.message)) := by
  intro fed refusal
  obtain ⟨_, hfed⟩ := exists_of_isOk (show fed.1.isOk = true by decide +kernel)
  obtain ⟨document, hfinished⟩ := exists_of_isOk (show fed.2.finish.1.isOk = true by decide +kernel)
  have hfirst : fed.2.finish.1.toOption.map (fun document =>
      document.order.findSome? (objection? document)) = some (some refusal) := by decide +kernel
  rw [hfinished] at hfirst
  obtain ⟨hstop, -⟩ := render_eq_error_iff hfed hfinished {}
  exact ⟨hfed, document, hfinished, (hstop _).2 ⟨refusal, Option.some.inj hfirst, rfl⟩⟩

end GlobTree.Extglob
