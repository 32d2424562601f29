/-
  ShiftReduce.Proofs.Termination
  ────────────────────────────────
  **WITHOUT A BOUND ON THE MOVES, SEARCHES END ALL THE SAME.**

  All that this takes is that no chain of one-symbol rules leads from a symbol
  back to itself.  Rules may be left-recursive, right-recursive and ambiguous,
  and the tokens may be any.

  Main statement: `search_terminates`.
-/
import ShiftReduce.Proofs.Completeness
import ShiftReduce.Proofs.Search.EventTree

namespace ShiftReduce

variable {S : Type} [DecidableEq S] [GrammarSymbol S]

namespace Problem

/-- Without a cycle of one-symbol rules the tree of all branches is finite. -/
theorem exists_unfolds (problem : Problem S) (acyclic : Acyclic problem.table.rules.toList)
    (maxSteps : Option Nat) : ∃ tree, problem.machine.Unfolds maxSteps [] tree := by
  obtain ⟨fuel, harvest, enumerated⟩ := exists_enumerate_of_acyclic problem acyclic maxSteps
  rw [Machine.enumerate?_eq] at enumerated
  obtain ⟨tree, unfolded, _⟩ := Option.map_eq_some_iff.1 enumerated
  exact ⟨tree, fuel, unfolded⟩

end Problem

/-- Without a cycle of one-symbol rules, a branch makes at most twice as many
moves as there are tokens, times one more than there are rules, and comes to an
end.  Every request for a result is therefore answered, and there are finitely
many results. -/
theorem search_terminates {rules : List (Rule S)} {table : DecisionTable S}
    (built : DecisionTable.build rules = .ok table) (acyclic : Acyclic rules) (stream : TokenStream S)
    (deduplicate : Bool) :
    (∀ history branch,
      Machine.Run (Problem.machine ⟨table, stream⟩) none 0 (Problem.start ⟨table, stream⟩)
        history branch →
      history.length ≤ 2 * stream.size * (rules.length + 1) ∧
        ∃ rest final result,
          Machine.Run (Problem.machine ⟨table, stream⟩) none 0 (Problem.start ⟨table, stream⟩)
            (history ++ rest) final ∧
          (Problem.machine ⟨table, stream⟩).ending? none (history ++ rest).length final =
            some result) ∧
    (∀ search, Search.Reachable (Problem.machine ⟨table, stream⟩) { deduplicate } search →
      ∃ outcome enough, ∀ fuel, enough ≤ fuel →
        Search.next? (Problem.machine ⟨table, stream⟩) { deduplicate } fuel search = some outcome) ∧
    ∃ results final enough, ∀ fuel, enough ≤ fuel →
      Search.collect? (Problem.machine ⟨table, stream⟩) { deduplicate } fuel .initial =
        some (results, final) := by
  have lawful := Problem.machine_lawful (⟨table, stream⟩ : Problem S)
  have acyclic' := DecisionTable.acyclic_of_build built acyclic
  have short : ∀ history branch,
      Machine.Run (Problem.machine ⟨table, stream⟩) none 0 (Problem.start ⟨table, stream⟩)
        history branch → history.length ≤ 2 * stream.size * (rules.length + 1) := by
    intro history branch run
    rw [← DecisionTable.size_of_build built]
    exact Problem.length_le_of_run acyclic' run
  refine ⟨?_, ?_, ?_⟩
  · intro history branch run
    obtain ⟨rest, final, result, longer, ended⟩ := run.exists_ending short
    rw [Nat.zero_add] at ended
    exact ⟨short history branch run, rest, final, result, longer, ended⟩
  · intro search reachable
    obtain ⟨tree, unfolds⟩ := Problem.exists_unfolds ⟨table, stream⟩ acyclic' none
    obtain ⟨trees, unexplored⟩ := reachable.unexplored lawful unfolds
    obtain ⟨outcome, enough, next⟩ := Search.exists_nexts lawful unexplored
    exact ⟨outcome, enough, fun fuel more => Search.next?_mono more next⟩
  · obtain ⟨_, final, enough, collected, _⟩ := Search.exists_collect lawful { deduplicate }
      (Problem.exists_enumerate_of_acyclic ⟨table, stream⟩ acyclic' none)
    exact ⟨_, final, enough, collected⟩

/-- On `a a <eos>`, the left-recursive and ambiguous rules for `E` let no branch
make more than 24 moves. -/
theorem search_terminates_join :
    (∀ history branch,
      Machine.Run (Problem.machine ⟨joinTable, joinStream⟩) none 0
        (Problem.start ⟨joinTable, joinStream⟩) history branch → history.length ≤ 24) ∧
    ∃ results final enough, ∀ fuel, enough ≤ fuel →
      Search.collect? (Problem.machine ⟨joinTable, joinStream⟩) {} fuel .initial =
        some (results, final) := by
  obtain ⟨short, _, finite⟩ :=
    search_terminates build_joinRules customary_joinRules.acyclic joinStream false
  exact ⟨fun history branch run => (short history branch run).1, finite⟩

end ShiftReduce
