/-
  ShiftReduce.Proofs.TokenKinds
  ────────────────────────────────
  **ONLY THE KINDS OF THE TOKENS DECIDE.**

  A search hands texts and positions on and looks at them in two comparisons
  only, of whole trees.  An accepted tree carries the tokens from the beginning of
  the stream in their order, so accepted trees of one shape over the same kinds
  are the same tree, and the comparisons come out alike for every stream of these
  kinds.

  Main statement: `only_kinds_decide`.
-/
import ShiftReduce.Proofs.Bare.Prediction
import ShiftReduce.Proofs.Bare.Search
import ShiftReduce.Proofs.Deduplication
import ShiftReduce.Proofs.Soundness

namespace ShiftReduce

variable {S : Type} [DecidableEq S] [GrammarSymbol S]

namespace Problem

/-! ## §1. Accepted trees. -/

/-- The leaves of an accepted tree are the first tokens of the stream. -/
theorem Accepted.yield_eq_take {problem : Problem S} {tree : ParseTree S} (accepted : problem.Accepted tree) :
    tree.yield = problem.stream.lexemes.take tree.yield.length := by
  -- A parse tree has all of the tokens; a tree accepted as the start symbol has a beginning of them.
  rcases accepted with byRule | asStart
  · rw [byRule.yield, List.take_length]
  · obtain ⟨cursor, _, yield⟩ := asStart.yield
    rw [yield, List.length_take, ← List.take_eq_take_min]

/-- Accepted trees can be told apart by their shapes and kinds. -/
theorem legible (problem : Problem S) (maxSteps : Option Nat) : problem.machine.Legible maxSteps where
  single ends accepted := by
    obtain ⟨tree, forest, _⟩ := accepted_of_endsIn ends (Option.isNone_iff_eq_none.1 accepted)
    exact ⟨tree, forest⟩
  apart {tree other} ends ends' same := by
    obtain ⟨_, forest, accepted⟩ := accepted_of_endsIn ends rfl
    obtain ⟨_, forest', accepted'⟩ := accepted_of_endsIn ends' rfl
    cases forest
    cases forest'
    -- Same shapes have equally many leaves, and both take them from the beginning of the stream.
    refine ParseTree.eq_of_bare accepted.builtBy accepted'.builtBy same ?_
    rw [accepted.yield_eq_take, accepted'.yield_eq_take, ParseTree.length_yield_of_bare same]

/-! ## §2. Streams of the same kinds. -/

theorem bare_eq_of_kinds (table : DecisionTable S) {left right : TokenStream S}
    (same : left.kinds = right.kinds) :
    (Problem.mk table left).bare = (Problem.mk table right).bare :=
  congrArg (Problem.mk table) (TokenStream.bare_eq_of_kinds same)

/-- Two problems with the same table and streams of the same kinds go the same ways. -/
theorem twins (table : DecisionTable S) {left right : TokenStream S} (same : left.kinds = right.kinds) :
    (Problem.mk table left).machine.Twins (Problem.mk table right).machine
      fun branch other => branch.bare = other.bare where
  start := by
    show (Problem.mk table left).start.bare = (Problem.mk table right).start.bare
    rw [← start_bare, bare_eq_of_kinds table same, start_bare]
  isOver {branch other} alike := by
    show branch.isOver = other.isOver
    rw [← branch.isOver_bare, alike, other.isOver_bare]
  moves {branch other} alike := by
    obtain ⟨moves, looked⟩ := (Problem.mk table left).nextMoves_bare branch
    obtain ⟨moves', looked'⟩ := (Problem.mk table right).nextMoves_bare other
    rw [bare_eq_of_kinds table same, alike] at moves looked
    exact ⟨moves.symm.trans moves', looked.symm.trans looked'⟩
  play {branch other} alike move := by
    have attempts : ((Problem.mk table left).apply move branch).bare =
        ((Problem.mk table right).apply move other).bare := by
      rw [← apply_bare, bare_eq_of_kinds table same, alike, apply_bare]
    -- Being bare, a failure is still one.
    have refused := congrArg (fun attempt => attempt.error.isSome) attempts
    exact ⟨congrArg Attempt.branch attempts, Option.isSome_map.symm.trans (refused.trans Option.isSome_map)⟩
  interrupt {branch other} alike := by
    show branch.interrupt.bare = other.interrupt.bare
    rw [← branch.interrupt_bare, alike, other.interrupt_bare]
  result {branch other} alike := by
    show branch.result.bare = other.result.bare
    rw [← branch.result_bare, alike, other.result_bare]

end Problem

/-- Texts and positions decide nothing.  For two streams of the same kinds, every call of
`next?` shows the same counters, and results with forests of the same shapes and kinds and with
failures of the same cause and phase, or no result in both searches, whether or not repetitions
are skipped; and the verdicts are of the same sort, with trees of the same shapes and kinds in
the same order, or with the same failures but for their positions. -/
theorem only_kinds_decide (table : DecisionTable S) (options : SearchOptions) (fuel : Nat)
    {left right : TokenStream S} (same : left.kinds = right.kinds) :
    (∀ calls,
      (Search.answers? (Problem.mk table left).machine options fuel calls .initial).map
          (List.map Answer.bare) =
        (Search.answers? (Problem.mk table right).machine options fuel calls .initial).map
          (List.map Answer.bare)) ∧
    (Search.verdict? (Problem.mk table left).machine options fuel .initial).map Verdict.bare =
      (Search.verdict? (Problem.mk table right).machine options fuel .initial).map Verdict.bare := by
  have twins := Problem.twins table same
  have lawful := (Problem.mk table left).machine_lawful
  have lawful' := (Problem.mk table right).machine_lawful
  have legible := (Problem.mk table left).legible options.maxSteps
  have legible' := (Problem.mk table right).legible options.maxSteps
  refine ⟨fun calls => ?_, twins.verdict? lawful lawful' legible legible' fuel⟩
  exact twins.answers? lawful lawful' legible legible' fuel calls Search.Honest.initial
    Search.Honest.initial rfl

/-- Tokens of the kinds `a c` with texts and positions of their own. -/
def strangeStream : TokenStream Symbol :=
  ⟨[⟨.terminal "a", "c", 8⟩, ⟨.terminal "c", "", 2⟩]⟩

/-- With the two rules for `A`, the second of three results for `a c` is a failure and the
third one is skipped as a repetition; for the other tokens the search shows the same. -/
theorem only_kinds_decide_strange :
    twinStream.kinds = strangeStream.kinds ∧ twinStream ≠ strangeStream ∧
    (Search.answers? (Problem.mk twinTable twinStream).machine { deduplicate := true } 12 3 .initial).map
        (List.map fun answer => (answer.result.map ParseResult.isAccepted, answer.explored, answer.pending)) =
      some [(some true, 1, 2), (some false, 2, 1), (none, 3, 0)] ∧
    (Search.answers? (Problem.mk twinTable twinStream).machine { deduplicate := true } 12 3 .initial).map
        (List.map Answer.bare) =
      (Search.answers? (Problem.mk twinTable strangeStream).machine { deduplicate := true } 12 3 .initial).map
        (List.map Answer.bare) := by
  have same : twinStream.kinds = strangeStream.kinds := rfl
  obtain ⟨answers, _⟩ := only_kinds_decide twinTable { deduplicate := true } 12 same
  exact ⟨same, by decide, by decide +kernel, answers 3⟩

end ShiftReduce
