import GlobTree.Proofs.Render.SourceMap
import GlobTree.Proofs.Results
import Mathlib.Data.List.Induction
import Mathlib.Data.List.Nodup
/-!
# The tables of a source map

A builder of a source map keeps three tables: the labels of the sources, their texts in the same
order, and the mappings. Whatever calls it gets (`Call`), in whatever order and with whatever
labels, the tables say what the calls said (`Records`): each label stands in the order of its first
mention, next to the text that was set for it last, and the mappings are those that were added.

* All calls go through `addSource`, which lists a label unless it is listed. It gives the index at
  which the label stands (`idxOf?_addSource`), and the labels that are listed only get more
  (`sources_prefix_calls`), so that an index stays.
* `Records.addSource` is the step of a label that is mentioned. Those of the other two calls add
  what they do to the tables after that.
-/

namespace GlobTree.SourceMapBuilder

/-- What a builder can be asked for. -/
inductive Call
  | addMapping (generated : Location) (origin : Span)
  | addSource (label : String)
  | setContent (label content : String)
  deriving DecidableEq, Repr, Inhabited

namespace Call

/-- The label that a call mentions. -/
def label : Call → String
  | addMapping _ origin => origin.source
  | addSource label => label
  | setContent label _ => label

/-- The mapping that a call adds. -/
def mapping? : Call → Option Mapping
  | addMapping generated origin => some ⟨generated, origin⟩
  | addSource _ | setContent _ _ => none

/-- The text that a call sets for a label. -/
def content? (label : String) : Call → Option String
  | setContent other content => if other = label then some content else none
  | addMapping _ _ | addSource _ => none

end Call

/-- A builder after a call. -/
def call (builder : SourceMapBuilder) : Call → SourceMapBuilder
  | .addMapping generated origin => builder.addMapping generated origin
  | .addSource label => (builder.addSource label).2
  | .setContent label content => builder.setContent label content

/-- A builder after some calls. -/
def calls (builder : SourceMapBuilder) (list : List Call) : SourceMapBuilder :=
  list.foldl call builder

/-- The text that calls have set for a label last. -/
def lastContent? (list : List Call) (label : String) : Option String :=
  (list.filterMap (Call.content? label)).getLast?

variable {builder : SourceMapBuilder} {label : String} {list : List Call}

/-! ## Listing a label -/

theorem addSource_of_idxOf? {index : Nat} (h : builder.sources.idxOf? label = some index) :
    builder.addSource label = (index, builder) := by
  rw [addSource, h]

theorem addSource_of_not_mem (h : label ∉ builder.sources) :
    builder.addSource label = (builder.sources.size,
      { builder with
        sources := builder.sources.push label
        contents := builder.contents.push none }) := by
  rw [addSource, Array.idxOf?_eq_none_iff.2 h]

/-- The labels that are listed stay where they are. -/
theorem sources_prefix_addSource (builder : SourceMapBuilder) (label : String) :
    builder.sources.toList <+: (builder.addSource label).2.sources.toList := by
  cases h : builder.sources.idxOf? label with
  | some index => simp only [addSource_of_idxOf? h, List.prefix_rfl]
  | none =>
    rw [addSource_of_not_mem (Array.idxOf?_eq_none_iff.1 h), Array.toList_push]
    exact List.prefix_append _ _

/-- **The index is where the label stands.** -/
theorem idxOf?_addSource (builder : SourceMapBuilder) (label : String) :
    (builder.addSource label).2.sources.idxOf? label = some (builder.addSource label).1 := by
  cases h : builder.sources.idxOf? label with
  | some index => rw [addSource_of_idxOf? h]; exact h
  | none =>
    have hmem := Array.idxOf?_eq_none_iff.1 h
    rw [addSource_of_not_mem hmem, idxOf?_eq_some_iff]
    refine ⟨Array.getElem?_push_size, fun j hj heq => hmem ?_⟩
    rw [Array.getElem?_push_lt hj] at heq
    exact Option.some.inj heq ▸ Array.getElem_mem hj

/-- **A list that only gets longer keeps the index of what it lists.** -/
theorem idxOf?_of_prefix {labels labels' : Array String} (h : labels.toList <+: labels'.toList)
    {index : Nat} (hindex : labels.idxOf? label = some index) :
    labels'.idxOf? label = some index := by
  obtain ⟨hlabel, hfirst⟩ := idxOf?_eq_some_iff.1 hindex
  obtain ⟨hlt, -⟩ := Array.getElem?_eq_some_iff.1 hlabel
  have hkeep (j : Nat) (hj : j < labels.size) : labels'[j]? = labels[j]? := by
    rw [← Array.getElem?_toList, ← Array.getElem?_toList]
    obtain ⟨more, hmore⟩ := h
    rw [← hmore, List.getElem?_append_left hj]
  refine idxOf?_eq_some_iff.2 ⟨(hkeep index hlt).trans hlabel, fun j hj => ?_⟩
  rw [hkeep j (Nat.lt_trans hj hlt)]
  exact hfirst j hj

theorem sources_setContent (builder : SourceMapBuilder) (label content : String) :
    (builder.setContent label content).sources = (builder.addSource label).2.sources := rfl

theorem contents_setContent (builder : SourceMapBuilder) (label content : String) :
    (builder.setContent label content).contents =
      (builder.addSource label).2.contents.setIfInBounds (builder.addSource label).1
        (some content) := rfl

/-! ## The labels of all calls -/

theorem file_addSource (builder : SourceMapBuilder) (label : String) :
    (builder.addSource label).2.file = builder.file := by
  rw [addSource]
  split <;> rfl

theorem file_calls (builder : SourceMapBuilder) (list : List Call) :
    (builder.calls list).file = builder.file := by
  induction list generalizing builder with
  | nil => rfl
  | cons call list ih =>
    refine (ih (builder.call call)).trans ?_
    cases call <;> exact file_addSource builder _

/-- A call lists its label, and changes nothing else about the labels. -/
theorem sources_call (builder : SourceMapBuilder) (call : Call) :
    (builder.call call).sources = (builder.addSource call.label).2.sources := by
  cases call <;> rfl

/-- Calls only list more labels. -/
theorem sources_prefix_calls (builder : SourceMapBuilder) (list : List Call) :
    builder.sources.toList <+: (builder.calls list).sources.toList := by
  induction list generalizing builder with
  | nil => exact List.prefix_rfl
  | cons call list ih =>
    refine List.IsPrefix.trans ?_ (ih (builder.call call))
    rw [sources_call]
    exact sources_prefix_addSource builder call.label

/-- **The index of a label stays**, whatever is called after it was given. -/
theorem idxOf?_calls (builder : SourceMapBuilder) (label : String) (more : List Call) :
    ((builder.addSource label).2.calls more).sources.idxOf? label =
      some (builder.addSource label).1 :=
  idxOf?_of_prefix (sources_prefix_calls _ more) (idxOf?_addSource builder label)

/-! ## What the tables say -/

/-- The tables of a builder say what the calls said. -/
structure Records (builder : SourceMapBuilder) (list : List Call) : Prop where
  nodup : builder.sources.toList.Nodup
  sources : builder.sources.toList = (list.map Call.label).eraseDups
  contents : builder.contents.toList = builder.sources.toList.map (lastContent? list)
  mappings : builder.mappings.toList = list.filterMap Call.mapping?

theorem records_new (file : Option String) : (new file).Records [] where
  nodup := List.nodup_nil
  sources := rfl
  contents := rfl
  mappings := rfl

/-- What was set last for a label, after one more call. -/
theorem lastContent?_concat (list : List Call) (call : Call) (label : String) :
    lastContent? (list ++ [call]) label = (call.content? label).or (lastContent? list label) := by
  rw [lastContent?, List.filterMap_append, List.getLast?_append]
  cases h : call.content? label <;> simp [h, lastContent?]

theorem lastContent?_addSource (list : List Call) (label : String) :
    lastContent? (list ++ [.addSource label]) = lastContent? list :=
  funext fun other => lastContent?_concat list (.addSource label) other

/-- Nothing was set for a label that was never mentioned. -/
theorem lastContent?_of_not_mem (h : label ∉ list.map Call.label) : lastContent? list label = none := by
  rw [lastContent?, List.getLast?_eq_none_iff, List.filterMap_eq_nil_iff]
  intro call hcall
  cases call with
  | addMapping => rfl
  | addSource => rfl
  | setContent other content =>
    exact if_neg fun heq : other = label => h (List.mem_map.2 ⟨_, hcall, heq⟩)

/-- A label is listed once, when it is mentioned first. -/
theorem eraseDups_concat (labels : List String) (label : String) :
    (labels ++ [label]).eraseDups =
      if label ∈ labels then labels.eraseDups else labels.eraseDups ++ [label] := by
  rw [List.eraseDups_append]
  by_cases h : label ∈ labels <;> simp [List.removeAll, List.eraseDups_cons, h]

namespace Records

theorem mem_sources_iff (h : builder.Records list) :
    label ∈ builder.sources ↔ label ∈ list.map Call.label := by
  rw [← Array.mem_toList_iff, h.sources, List.mem_eraseDups]

theorem source_mem (h : builder.Records list) {mapping : Mapping} (hmem : mapping ∈ builder.mappings) :
    mapping.origin.source ∈ builder.sources := by
  rw [← Array.mem_toList_iff, h.mappings] at hmem
  obtain ⟨call, hcall, hmapping⟩ := List.mem_filterMap.1 hmem
  rw [h.mem_sources_iff]
  cases call with
  | addMapping generated origin =>
    obtain rfl := Option.some.inj hmapping
    exact List.mem_map.2 ⟨_, hcall, rfl⟩
  | addSource => cases hmapping
  | setContent => cases hmapping

/-- The labels after one more call, if its label is listed or not. -/
theorem eraseDups_call (h : builder.Records list) (call : Call) :
    ((list ++ [call]).map Call.label).eraseDups =
      if call.label ∈ builder.sources then builder.sources.toList
      else builder.sources.toList ++ [call.label] := by
  rw [List.map_append, List.map_singleton, eraseDups_concat, h.sources]
  simp only [h.mem_sources_iff]

/-- **A label that is mentioned** and nothing else. -/
theorem addSource (h : builder.Records list) (label : String) :
    (builder.addSource label).2.Records (list ++ [.addSource label]) := by
  have hlast := lastContent?_addSource list label
  have hmappings : (list ++ [Call.addSource label]).filterMap Call.mapping? =
      list.filterMap Call.mapping? := by
    rw [List.filterMap_append]
    exact List.append_nil _
  cases hindex : builder.sources.idxOf? label with
  | some index =>
    have hmem : label ∈ builder.sources := Array.mem_of_getElem? (idxOf?_eq_some_iff.1 hindex).1
    rw [addSource_of_idxOf? hindex]
    refine ⟨h.nodup, ?_, hlast ▸ h.contents, hmappings ▸ h.mappings⟩
    exact ((h.eraseDups_call (.addSource label)).trans (if_pos hmem)).symm
  | none =>
    have hnew := Array.idxOf?_eq_none_iff.1 hindex
    rw [addSource_of_not_mem hnew]
    refine ⟨?_, ?_, ?_, hmappings ▸ h.mappings⟩
    · rw [Array.toList_push, ← List.concat_eq_append]
      exact h.nodup.concat fun hmem => hnew (Array.mem_toList_iff.1 hmem)
    · rw [Array.toList_push]
      exact ((h.eraseDups_call (.addSource label)).trans (if_neg hnew)).symm
    · rw [Array.toList_push, Array.toList_push, hlast, List.map_append, h.contents,
        List.map_singleton, lastContent?_of_not_mem fun hmem => hnew (h.mem_sources_iff.2 hmem)]

/-- **A mapping** is added after the label of its origin was mentioned. -/
theorem addMapping (h : builder.Records list) (generated : Location) (origin : Span) :
    (builder.addMapping generated origin).Records (list ++ [.addMapping generated origin]) := by
  have hsource := h.addSource origin.source
  have hlabels : (list ++ [Call.addMapping generated origin]).map Call.label =
      (list ++ [Call.addSource origin.source]).map Call.label := by
    rw [List.map_append, List.map_append]
    rfl
  have hlast : lastContent? (list ++ [.addMapping generated origin]) =
      lastContent? (list ++ [.addSource origin.source]) := by
    rw [lastContent?_addSource]
    exact funext fun other => lastContent?_concat list (.addMapping generated origin) other
  refine ⟨hsource.nodup, hlabels ▸ hsource.sources, hlast ▸ hsource.contents, ?_⟩
  rw [mappings_addMapping, Array.toList_push, h.mappings, List.filterMap_append]
  rfl

/-- **A text is set** next to its label, after the label was mentioned. -/
theorem setContent (h : builder.Records list) (label content : String) :
    (builder.setContent label content).Records (list ++ [.setContent label content]) := by
  have hsource := h.addSource label
  have hlabels : (list ++ [Call.setContent label content]).map Call.label =
      (list ++ [Call.addSource label]).map Call.label := by
    rw [List.map_append, List.map_append]
    rfl
  have hlast : lastContent? (list ++ [.setContent label content]) =
      Function.update (lastContent? (list ++ [.addSource label])) label (some content) := by
    funext other
    rw [lastContent?_addSource, lastContent?_concat, Function.update_apply]
    by_cases hother : label = other
    · simp [Call.content?, hother]
    · simp [Call.content?, hother, Ne.symm hother]
  have hlabel := (idxOf?_eq_some_iff.1 (idxOf?_addSource builder label)).1
  rw [← Array.getElem?_toList] at hlabel
  obtain ⟨hlt, hat⟩ := List.getElem?_eq_some_iff.1 hlabel
  have hindex := hsource.nodup.idxOf_getElem _ hlt
  rw [hat] at hindex
  refine ⟨hsource.nodup, hlabels ▸ hsource.sources, ?_, ?_⟩
  · rw [contents_setContent, Array.toList_setIfInBounds, hsource.contents, hlast,
      sources_setContent, hsource.nodup.map_update, if_pos (List.mem_of_getElem? hlabel), hindex]
  · rw [mappings_setContent, h.mappings, List.filterMap_append]
    exact (List.append_nil _).symm

/-- A call. -/
theorem call (h : builder.Records list) (call : Call) :
    (builder.call call).Records (list ++ [call]) := by
  cases call with
  | addMapping generated origin => exact h.addMapping generated origin
  | addSource label => exact h.addSource label
  | setContent label content => exact h.setContent label content

end Records

/-- **A new builder says what all its calls said.** -/
theorem records_calls (file : Option String) (list : List Call) :
    ((new file).calls list).Records list := by
  induction list using List.reverseRecOn with
  | nil => exact records_new file
  | append_singleton list call ih =>
    rw [calls, List.foldl_append]
    exact ih.call call

/-- **The tables of a builder stay in step**, whatever calls it gets.

* Each label that was mentioned is listed once, in the order of the first mentions.
* There are as many texts as labels.
* The index that a label was given is its index after all further calls.
* Next to a label stands the text that was set for it last, if any was.
* The mappings are the added ones in order, and the label of each one's origin is listed.
* A finished map has the tables of the builder. -/
theorem tables_of_calls (file : Option String) (list : List Call) :
    let builder := (new file).calls list
    (builder.sources.toList = (list.map Call.label).eraseDups ∧ builder.sources.toList.Nodup ∧
      ∀ label, label ∈ builder.sources ↔ label ∈ list.map Call.label) ∧
    builder.sources.size = builder.contents.size ∧
    (∀ label more,
      let index := (builder.addSource label).1
      let later := (builder.addSource label).2.calls more
      later.sources[index]? = some label ∧ later.addSource label = (index, later)) ∧
    builder.contents = builder.sources.map (lastContent? list) ∧
    (builder.mappings.toList = list.filterMap Call.mapping? ∧
      ∀ mapping ∈ builder.mappings, mapping.origin.source ∈ builder.sources) ∧
    builder.finish = ⟨file, builder.sources, builder.contents, builder.mappings⟩ := by
  intro builder
  have hrecords : builder.Records list := records_calls file list
  have hcontents : builder.contents = builder.sources.map (lastContent? list) :=
    Array.toList_inj.1 (hrecords.contents.trans Array.toList_map.symm)
  refine ⟨⟨hrecords.sources, hrecords.nodup, fun _ => hrecords.mem_sources_iff⟩, ?_, ?_, hcontents,
    ⟨hrecords.mappings, fun _ => hrecords.source_mem⟩, ?_⟩
  · rw [hcontents, Array.size_map]
  · intro label more index later
    have hindex : later.sources.idxOf? label = some index := idxOf?_calls builder label more
    exact ⟨(idxOf?_eq_some_iff.1 hindex).1, addSource_of_idxOf? hindex⟩
  · have hfile : builder.file = file := file_calls (new file) list
    rw [finish, hfile]

end GlobTree.SourceMapBuilder
