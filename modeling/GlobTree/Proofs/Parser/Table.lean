import GlobTree.Extglob.Grammar
import GlobTree.Proofs.Parser.Work
import GlobTree.Proofs.Regex.Heads
/-!
# Tables of tokens and pairs

A table without programs is a list of `Registration`s: tokens of a kind, or groups of a kind by the
rules for their two ends. `Parser.ofTable` is a fresh parser with a table.

Each registration makes one or two `Clause`s, a rule together with what its matches are good for.
The first clause of a table that recognises something says what the next piece of a text is
(`Table.first?`). If no rule matches further on in a text, a parser with the table cuts texts in
just that way (`Table.obeys`).
-/

namespace GlobTree

variable {K M : Type}

/-! ## Tables -/

/-- What can be registered with a parser, programs apart. -/
inductive Registration (K : Type)
  /-- Tokens of a kind. -/
  | capture (kind : K) (rule : Rule)
  /-- Groups of a kind, by the rules for their opening and their closing tokens. -/
  | pair (kind : K) (opening closing : Rule)
  deriving DecidableEq, Repr

/-- Registrations in order. -/
abbrev Table (K : Type) := List (Registration K)

/-- Registers one thing. -/
def Parser.registerOne (parser : Parser K M) : Registration K → Parser K M
  | .capture kind rule => parser.registerCapture kind rule
  | .pair kind opening closing => parser.registerPair kind opening closing

/-- A fresh parser with a table. -/
def Parser.ofTable (table : Table K) (options : ParserOptions) (memory : M) : Parser K M :=
  table.foldl Parser.registerOne (.new options memory)

/-- A rule, and what a match of it is good for. -/
structure Clause (K : Type) where
  rule : Rule
  use : RuleMatch → Use K

/-- What the rule of a clause recognises in a text, and what that is good for. -/
def Clause.find? (clause : Clause K) (text : List Char) : Option (Use K × List Char) :=
  (clause.rule.matchHead text).map fun found => (clause.use found, found.text.toList)

/-- The clauses of a registration. A pair has one for each end, the opening one first. -/
def Registration.clauses : Registration K → List (Clause K)
  | .capture kind rule => [⟨rule, fun _ => .token kind⟩]
  | .pair kind opening closing =>
    [⟨opening, fun found => .opening kind found.lead⟩,
      ⟨closing, fun found => .closing kind found.trail⟩]

namespace Table

/-- The clauses of a table. -/
def clauses (table : Table K) : List (Clause K) := table.flatMap Registration.clauses

/-- What the first clause of a table recognises that recognises anything. -/
def first? (table : Table K) (text : List Char) : Option (Use K × List Char) :=
  table.clauses.findSome? (·.find? text)

/-- All rules of a table match at the head of a text only. -/
def HeadOnly (table : Table K) : Prop := ∀ clause ∈ table.clauses, clause.rule.HeadOnly

/-- The way in which a table cuts texts. -/
def cut (table : Table K) : Draft.Cut K := fun _ c cs =>
  (table.first? (c :: cs)).map fun (use, raw) => (use, raw.length - 1)

/-- What a table recognises stands at the head of the text. -/
theorem HeadOnly.raw_eq {table : Table K} (headOnly : table.HeadOnly) {c : Char} {cs raw : List Char}
    {use : Use K} (h : table.first? (c :: cs) = some (use, raw)) :
    raw = c :: cs.take (raw.length - 1) := by
  obtain ⟨clause, hclause, hfind⟩ := List.exists_of_findSome?_eq_some h
  obtain ⟨found, hfound, hpair⟩ := Option.map_eq_some_iff.1 hfind
  obtain ⟨-, rfl⟩ := Prod.mk.inj hpair
  obtain ⟨-, -, -, hne⟩ := Rule.exists_of_matchHead hfound
  obtain ⟨d, ds, hd⟩ := List.exists_cons_of_ne_nil hne
  obtain ⟨rest, hrest⟩ := headOnly clause hclause hfound
  rw [hd, List.cons_append] at hrest
  obtain ⟨rfl, rfl⟩ := List.cons.inj hrest
  rw [hd, List.length_cons, Nat.add_sub_cancel, List.take_left]

/-- Nothing that a table recognises is a reason to complain. -/
theorem complaint_eq_none {table : Table K} {text raw : List Char} {kind : K}
    {complaint : Option String} (h : table.first? text = some (.token kind complaint, raw)) :
    complaint = none := by
  obtain ⟨clause, hclause, hfind⟩ := List.exists_of_findSome?_eq_some h
  obtain ⟨found, -, hpair⟩ := Option.map_eq_some_iff.1 hfind
  obtain ⟨registration, -, hmem⟩ := List.mem_flatMap.1 hclause
  cases registration with
  | capture kind rule =>
    obtain rfl := List.mem_singleton.1 hmem
    cases hpair
    rfl
  | pair kind opening closing =>
    rcases List.mem_pair.1 hmem with rfl | rfl <;> cases hpair

end Table

/-! ## A table -/

open Extglob (ruleOf) in
/-- Words and blanks, in groups of two kinds that are named by their closing tokens. -/
def Table.words : Table Char := [
  .capture 'w' (ruleOf "[^\\s()<>=]+" rfl),
  .capture ' ' (ruleOf "\\s+" rfl),
  .pair ')' (ruleOf "(?P<prefix>=)?\\(" rfl) Extglob.parenCloseRule,
  .pair '>' (ruleOf "<" rfl) (ruleOf ">" rfl)]

theorem Table.headOnly_words : Table.words.HeadOnly := by
  have hanchored : ∀ clause ∈ words.clauses, clause.rule.regex.isAnchored := by decide +kernel
  exact fun clause hclause => Rule.headOnly_of_isAnchored (hanchored clause hclause)

theorem exists_of_isOk {ε α : Type} {result : Except ε α} (h : result.isOk = true) :
    ∃ value, result = .ok value := by
  cases result with
  | ok value => exact ⟨value, rfl⟩
  | error error => cases h

/-! ## The handlers of a table -/

/-- The handlers of a registration. -/
def Registration.handlers : Registration K → List (Handler K M)
  | .capture kind rule => [.capture kind rule]
  | .pair kind opening closing => [.opening kind opening, .closing kind closing]

namespace Parser

theorem handlers_foldl_registerOne (table : Table K) (parser : Parser K M) :
    (table.foldl registerOne parser).handlers.toList =
      parser.handlers.toList ++ table.flatMap Registration.handlers := by
  induction table generalizing parser with
  | nil => simp
  | cons registration table ih =>
    rw [List.foldl_cons, ih, List.flatMap_cons, ← List.append_assoc]
    congr 1
    cases registration <;>
      simp [registerOne, registerCapture, registerPair, register, Registration.handlers]

theorem handlers_ofTable (table : Table K) (options : ParserOptions) (memory : M) :
    (ofTable table options memory).handlers.toList = table.flatMap Registration.handlers :=
  handlers_foldl_registerOne table _

/-- Registering does not touch the state. -/
theorem foldl_registerOne (table : Table K) (parser : Parser K M) :
    table.foldl registerOne parser =
      { parser with handlers := (table.foldl registerOne parser).handlers } := by
  induction table generalizing parser with
  | nil => rfl
  | cons registration table ih =>
    rw [List.foldl_cons, ih]
    cases registration <;> rfl

theorem ofTable_eq (table : Table K) (options : ParserOptions) (memory : M) :
    ofTable table options memory =
      { handlers := (ofTable table options memory).handlers
        state := .fresh options
        memory := memory } :=
  foldl_registerOne table _

theorem state_ofTable (table : Table K) (options : ParserOptions) (memory : M) :
    (ofTable table options memory).state = .fresh options := by
  rw [ofTable_eq]

theorem poisoned_ofTable (table : Table K) (options : ParserOptions) (memory : M) :
    (ofTable table options memory).poisoned = false := by
  rw [ofTable_eq]

end Parser

/-! ## Turns of a table -/

variable [DecidableEq K]

section Turns

variable {state : ParseState K} {draft : Draft K} {c : Char} {cs : List Char}

omit [DecidableEq K] in
theorem Clause.map_find? (clause : Clause K) (text : List Char) :
    ((clause.find? text).map fun (use, raw) => (use, raw.length - 1)) =
      (clause.rule.matchHead text).map fun found =>
        (clause.use found, found.text.toList.length - 1) := by
  rw [find?, Option.map_map]
  rfl

/-- The handlers of a registration answer what its clauses find. -/
theorem Registration.answers (follows : state.Follows draft) (text : state.remaining = c :: cs)
    (registration : Registration K)
    (headOnly : ∀ clause ∈ registration.clauses, clause.rule.HeadOnly) :
    List.Forall₂ (fun (handler : Handler K M) piece =>
        Answers (handler.program.run state) () () state draft c cs piece)
      registration.handlers
      (registration.clauses.map fun clause =>
        (clause.find? (c :: cs)).map fun (use, raw) => (use, raw.length - 1)) := by
  simp only [Clause.map_find?]
  cases registration with
  | capture kind rule =>
    have hfinds := (headOnly _ List.mem_cons_self).finds c cs
    have hanswers := answers_capture (M := M) follows text hfinds kind
    rw [Option.map_map] at hanswers
    exact .cons hanswers .nil
  | pair kind opening closing =>
    have hopening := (headOnly _ List.mem_cons_self).finds c cs
    have hclosing := (headOnly _ (List.mem_cons_of_mem _ List.mem_cons_self)).finds c cs
    have hopens := answers_opening (M := M) follows text hopening kind
    have hcloses := answers_closing (M := M) follows text hclosing kind
    rw [Option.map_map] at hopens hcloses
    exact .cons hopens (.cons hcloses .nil)

end Turns

namespace Table

/-- What the handlers of a table find, in order, for a text `c :: cs`. -/
def found (table : Table K) (c : Char) (cs : List Char) : List (Option (Use K × Nat)) :=
  table.clauses.map fun clause =>
    (clause.find? (c :: cs)).map fun (use, raw) => (use, raw.length - 1)

omit [DecidableEq K] in
theorem findSome?_found (table : Table K) (innermost : Option K) (c : Char) (cs : List Char) :
    (table.found c cs).findSome? id = table.cut innermost c cs := by
  rw [found, List.findSome?_map, cut, first?, List.map_findSome?]
  rfl

theorem HeadOnly.answers {table : Table K} (headOnly : table.HeadOnly) {state : ParseState K}
    {draft : Draft K} {c : Char} {cs : List Char} (follows : state.Follows draft)
    (text : state.remaining = c :: cs) :
    List.Forall₂ (fun (handler : Handler K M) piece =>
        Answers (handler.program.run state) () () state draft c cs piece)
      (table.flatMap Registration.handlers) (table.found c cs) := by
  induction table with
  | nil => exact .nil
  | cons registration table ih =>
    rw [HeadOnly, clauses, List.flatMap_cons, List.forall_mem_append] at headOnly
    have hfirst := registration.answers (M := M) follows text headOnly.1
    rw [found, clauses, List.flatMap_cons, List.flatMap_cons, List.map_append]
    exact List.rel_append hfirst (ih headOnly.2)

/-- **A parser with a table cuts texts as the table says.** -/
theorem HeadOnly.obeys {table : Table K} (headOnly : table.HeadOnly) (options : ParserOptions)
    (memory : M) :
    Obeys (Parser.ofTable table options memory).handlers.toList table.cut fun _ => True where
  answers follows _ text := by
    rw [Parser.handlers_ofTable, ← findSome?_found]
    exact answers_turn (headOnly.answers follows text)
  keeps _ _ _ := trivial

end Table

end GlobTree
