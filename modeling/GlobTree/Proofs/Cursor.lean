import GlobTree.Proofs.Parser.Growth
import GlobTree.Proofs.Regex.Heads
import GlobTree.Proofs.Regex.Wrapped
/-!
# Rules at the cursor

`Rule.matches_at_cursor` says where the rules that can be read match. A rule whose text is a regular
expression on its own matches at the cursor only, and reading what it recognises moves the cursor
over just that. The one way for a rule to match further on is to close the group that anchors it,
as `a)|(?:b` does. What such a rule recognises is some stretch of the text, and reading it moves the
cursor over as many bytes, whatever they are, and fails if they end inside of a character.
-/

namespace GlobTree

variable {K : Type}

namespace Rule

/-- What a rule recognises is a stretch of the text. -/
theorem infix_of_matchHead {rule : Rule} {text : List Char} {found : RuleMatch}
    (h : rule.matchHead text = some found) : found.text.toList <:+: text := by
  obtain ⟨hit, -, htext, -⟩ := exists_of_matchHead h
  rw [htext, Stretch.of]
  exact (List.take_prefix _ _).isInfix.trans (List.drop_suffix _ _).isInfix

/-- A rule reads as many bytes as it recognises, wherever it recognises them. -/
theorem cursor_of_eat? {rule : Rule} {state state' : ParseState K} {found : RuleMatch}
    (h : state.eat? rule = some (some found, state')) :
    state'.cursor = state.cursor + found.size := by
  rw [ParseState.eat?] at h
  split at h
  next => cases h
  next found' hfound =>
    obtain ⟨next, hadvance, heq⟩ := Option.map_eq_some_iff.1 h
    cases heq
    obtain ⟨⟨text, reader⟩, hread, rfl⟩ := Option.map_eq_some_iff.1 hadvance
    refine Reader.cursor_of_advance? ?_ hread
    obtain ⟨front, back, heq⟩ := infix_of_matchHead hfound
    have hsize : found.size = byteLength found.text.toList := (byteLength_toList found.text).symm
    have hlength := congrArg byteLength heq
    rw [byteLength_append, byteLength_append] at hlength
    have hrest : byteLength state.remaining = byteLength state.reader.rest := rfl
    omega

/-- A rule whose text is a regular expression on its own matches at the head only. -/
theorem headOnly_of_read {pattern : String} {engine : Engine} {rule : Rule}
    (h : Rule.read pattern engine = .ok rule)
    (hpattern : Pattern.read pattern.toList engine ≠ .error .groupUnopened) : rule.HeadOnly := by
  obtain ⟨own, -, hregex, -⟩ := (read_cases h).resolve_left hpattern
  apply headOnly_of_isAnchored
  rw [hregex]
  rfl

/-- **Reading with a rule that matches at the head only** moves the cursor over what the rule
recognises. -/
theorem HeadOnly.exists_eat? {rule : Rule} (headOnly : rule.HeadOnly) (state : ParseState K)
    {found : RuleMatch} (h : rule.matchHead state.remaining = some found) :
    ∃ state', state.eat? rule = some (some found, state') ∧
      state'.consumed = state.consumed ++ found.text.toList ∧
      state.remaining = found.text.toList ++ state'.remaining := by
  obtain ⟨rest, hrest⟩ := headOnly h
  have htext : found.text = String.ofList found.text.toList := String.ofList_toList.symm
  exact ⟨_, ParseState.eat?_of_some hrest.symm h htext, state.past_consumed _ _ hrest.symm,
    hrest.symm⟩

/-- **Where rules match.** What a rule recognises is a stretch of the text, never empty, and as many
bytes are read. Unless the text of the rule closes a group that it does not open, the stretch is at
the head, and just this stretch is read. -/
theorem matches_at_cursor {pattern : String} {engine : Engine} {rule : Rule}
    (h : Rule.read pattern engine = .ok rule) :
    ((∀ ⦃text found⦄, rule.matchHead text = some found →
        found.text.toList ≠ [] ∧ found.text.toList <:+: text) ∧
      ∀ {K : Type} ⦃state state' : ParseState K⦄ ⦃found⦄,
        state.eat? rule = some (some found, state') → state'.cursor = state.cursor + found.size) ∧
    (Pattern.read pattern.toList engine ≠ .error .groupUnopened →
      (∀ ⦃text found⦄, rule.matchHead text = some found → found.text.toList <+: text) ∧
      ∀ {K : Type} (state : ParseState K),
        (rule.matchHead state.remaining = none → state.eat? rule = some (none, state)) ∧
        ∀ ⦃found⦄, rule.matchHead state.remaining = some found →
          ∃ state', state.eat? rule = some (some found, state') ∧
            state'.consumed = state.consumed ++ found.text.toList ∧
            state.remaining = found.text.toList ++ state'.remaining) := by
  refine ⟨⟨fun text found hfound => ?_, cursor_of_eat?⟩, fun hpattern => ?_⟩
  · obtain ⟨-, -, -, hne⟩ := exists_of_matchHead hfound
    exact ⟨hne, infix_of_matchHead hfound⟩
  · have headOnly := headOnly_of_read h hpattern
    exact ⟨headOnly, fun state =>
      ⟨ParseState.eat?_of_none, fun found hfound => headOnly.exists_eat? state hfound⟩⟩

/-- An alternation is anchored as a whole. A rule that closes the group around it matches further on,
and cannot be read with if its bytes end inside of a character. -/
theorem matches_at_cursor_alternation :
    (∃ rule found, Rule.read "x|y" = .ok rule ∧ rule.matchHead "yz".toList = some found ∧
      found.text = "y" ∧ found.text.toList <+: "yz".toList) ∧
    ∃ rule found, Rule.read "a)|(?:b" = .ok rule ∧
      Pattern.read "a)|(?:b".toList = .error .groupUnopened ∧
      rule.matchHead "xb".toList = some found ∧ found.text = "b" ∧
      ¬ found.text.toList <+: "xb".toList ∧
      ((ParseState.fresh {} : ParseState Nat).feed "éb".toList).eat? rule = none := by
  refine ⟨⟨_, ⟨"y", none, none, []⟩, rfl, ?_, rfl, ?_⟩, _, ⟨"b", none, none, []⟩, rfl, rfl, ?_, rfl,
    ?_, ?_⟩
  · decide +kernel
  · refine ((@matches_at_cursor "x|y" {} _ rfl).2 ?_).1 ?_
    · intro h
      cases h
    · decide +kernel
  · decide +kernel
  · decide +kernel
  · decide +kernel

end Rule

end GlobTree
