/-
  ShiftReduce.Proofs.Soundness
  ────────────────────────────────
  **WHAT A RESULT WITHOUT A FAILURE MEANS.**

  Whatever the grammar and the options, a search hands out a result without a
  failure only for a tree that the rules build over the tokens of the stream.
  How much is known of the root depends on the table: with end-markers in the
  rules it is made by a rule that ends with one, without them it is of the
  start symbol.

  Main statement: `accepted_result_sound`.
-/
import ShiftReduce.Proofs.Branch.Soundness
import ShiftReduce.Proofs.Grammar.Build
import ShiftReduce.Proofs.Search.Driver
import ShiftReduce.Symbol.Named

namespace ShiftReduce

variable {S : Type} [DecidableEq S] [GrammarSymbol S]

namespace Problem

variable {problem : Problem S} {tree : ParseTree S}

/-! ## §1. Accepted trees. -/

theorem Accepted.builtBy (h : problem.Accepted tree) :
    ParseTree.BuiltBy problem.table.rules.toList tree := by
  have inner := problem.table.rules.inner_subset
  rcases h with byRule | asStart
  · obtain ⟨rule, hrule, _, applies, _⟩ := byRule.root
    refine .of_applies hrule applies ?_
    intro child mem
    exact (byRule.built child mem).mono inner
  · exact asStart.built.mono inner

/-- With an accepting item in the table no branch is accepted without one. -/
theorem Accepted.byRule (h : problem.Accepted tree)
    (explicit : problem.table.acceptsExplicitly = true) : problem.AcceptedByRule tree := by
  rcases h with byRule | asStart
  · exact byRule
  · rw [asStart.implicit] at explicit
    cases explicit

/-- Without an accepting item in the table no branch is accepted by one. -/
theorem Accepted.asStart (h : problem.Accepted tree)
    (implicit : problem.table.acceptsExplicitly = false) : problem.AcceptedAsStart tree := by
  rcases h with byRule | asStart
  · obtain ⟨rule, hrule, terminating, _⟩ := byRule.root
    rw [DecisionTable.acceptsExplicitly_iff.2 ⟨rule, hrule, terminating⟩] at implicit
    cases implicit
  · exact asStart

/-- All tokens are leaves of the tree, but for an end-marker that may be left. -/
theorem AcceptedAsStart.yield_eq (h : problem.AcceptedAsStart tree) :
    tree.yield = problem.stream.lexemes ∨
      ∃ marker, GrammarSymbol.isEndMarker marker.kind = true ∧
        tree.yield ++ [marker] = problem.stream.lexemes := by
  obtain ⟨cursor, settled, yield⟩ := h.yield
  have whole := List.take_append_drop cursor problem.stream.lexemes
  rcases settled with none | ⟨marker, one, end_⟩
  · rw [none, List.append_nil] at whole
    exact .inl (yield.trans whole)
  · rw [one] at whole
    exact .inr ⟨marker, end_, by rw [yield, whole]⟩

end Problem

/-! ## §2. Results of a search. -/

/-- Every result without a failure, whichever of the results of a search it is,
holds one tree.  The rules build it, its leaves are the tokens of the stream,
and its root is made by a rule that ends with an end-marker; or, if no rule
does, the root is of the start symbol and an end-marker may be left over. -/
theorem accepted_result_sound {rules : List (Rule S)} {table : DecisionTable S}
    (built : DecisionTable.build rules = .ok table) (stream : TokenStream S) (options : SearchOptions)
    {search after : Search S (Move S)} {fuel : Nat} {result : ParseResult S}
    (reachable : Search.Reachable (Problem.machine ⟨table, stream⟩) options search)
    (handed : Search.next? (Problem.machine ⟨table, stream⟩) options fuel search =
      some (some result, after))
    (accepted : result.error = none) :
    ∃ tree, result.forest = [tree] ∧ ParseTree.BuiltBy rules tree ∧
      (table.acceptsExplicitly = true → tree.yield = stream.lexemes ∧
        ∃ rule ∈ rules, rule.isTerminating = true ∧ ParseTree.Applies rule tree) ∧
      (table.acceptsExplicitly = false → ParseTree.kind tree = table.start ∧
        (tree.yield = stream.lexemes ∨ ∃ marker, GrammarSymbol.isEndMarker marker.kind = true ∧
          tree.yield ++ [marker] = stream.lexemes)) := by
  have lawful := Problem.machine_lawful (⟨table, stream⟩ : Problem S)
  obtain ⟨tree, forest, htree⟩ :=
    Problem.accepted_of_endsIn (Search.endsIn_of_next? lawful reachable handed) accepted
  have known : table.rules.toList ⊆ rules := fun rule => (DecisionTable.mem_rules_of_build built).1
  refine ⟨tree, forest, htree.builtBy.mono known, ?_, ?_⟩
  · intro explicit
    have byRule := htree.byRule explicit
    obtain ⟨rule, hrule, terminating, applies, _⟩ := byRule.root
    exact ⟨byRule.yield, rule, known hrule, terminating, applies⟩
  · intro implicit
    have asStart := htree.asStart implicit
    exact ⟨asStart.kind, asStart.yield_eq⟩

/-- The table of the rule `S => a <eos>`. -/
def singleTable : DecisionTable Symbol :=
  .ofRuleSet ⟨[⟨0, .nonTerminal "S", [.terminal "a", .endMarker]⟩], by decide, by decide, by decide⟩

/-- The first result for `a <eos>` by the rule `S => a <eos>` is one of those spoken of. -/
theorem accepted_result_sound_single :
    ∃ (table : DecisionTable Symbol) (result : ParseResult Symbol)
        (after : Search Symbol (Move Symbol)),
      DecisionTable.build [⟨0, .nonTerminal "S", [.terminal "a", .endMarker]⟩] = .ok table ∧
        Search.next? (Problem.machine ⟨table, .ofKinds [.terminal "a", .endMarker]⟩) {} 6 .initial =
          some (some result, after) ∧
        result.error = none ∧
        ∃ tree, result.forest = [tree] ∧
          tree.yield = (TokenStream.ofKinds [Symbol.terminal "a", .endMarker]).lexemes := by
  have run : ∃ (table : DecisionTable Symbol) (result : ParseResult Symbol)
      (after : Search Symbol (Move Symbol)),
      DecisionTable.build [⟨0, .nonTerminal "S", [.terminal "a", .endMarker]⟩] = .ok table ∧
        Search.next? (Problem.machine ⟨table, .ofKinds [.terminal "a", .endMarker]⟩) {} 6 .initial =
          some (some result, after) ∧
        result.error = none ∧ table.acceptsExplicitly = true :=
    ⟨singleTable, _, _, singleTable.build_rules, rfl, rfl, rfl⟩
  obtain ⟨table, result, after, built, handed, accepted, explicit⟩ := run
  obtain ⟨tree, forest, _, byRule, _⟩ :=
    accepted_result_sound built _ {} .initial handed accepted
  exact ⟨table, result, after, built, handed, accepted, tree, forest, (byRule explicit).1⟩

end ShiftReduce
