/-
  ShiftReduce.Proofs.EndedBranches
  ────────────────────────────────
  **BRANCHES THAT ARE OVER.**

  A branch is over once it is accepted or has failed.  Looking for moves and
  interrupting leave such a branch alone, and so does every move if it has
  failed.  A branch that is accepted, though, makes any move that it is given:
  the move counts, it may rewrite the stack, and if it is refused, its failure
  stays in the branch.  Where no move is made in an accepted branch, none is
  both accepted and failed.

  Main statement: `ended_stays_ended`, and `accepted_branch_fails` for a branch
  that is both.
-/
import ShiftReduce.Proofs.Branch.Failures
import ShiftReduce.Symbol.Named

namespace ShiftReduce

variable {S : Type} [DecidableEq S] [GrammarSymbol S]

namespace Problem

variable {problem : Problem S} {branch : Branch S}

/-! ## §1. An accepted branch stays accepted. -/

/-- A branch that is accepted and has not failed makes the move: what it leaves
behind is what a step leaves behind, since there is nothing to complete. -/
theorem leaves_apply_of_done (move : Move S) (clean : branch.stack.popped = [])
    (accepted : branch.done = true) (alive : branch.error = none) :
    problem.Leaves move.item branch (problem.apply move branch).branch := by
  have leaves : problem.Leaves move.item (counted move branch)
      (problem.step move (counted move branch)).branch := leaves_step move clean
  have stepped : (problem.step move (counted move branch)).branch.done = true := leaves.done accepted
  have same : (problem.apply move branch).branch.standing =
      (problem.step move (counted move branch)).branch.standing := by
    rw [apply_eq problem move alive]
    split
    · -- Completion does nothing to a branch that is over.
      show (problem.complete _).standing = _
      rw [complete_of_isOver (by rw [Branch.isOver, stepped, Bool.true_or])]
    · rfl
  exact leaves.congr rfl same

/-! ## §2. Branches in which no move is made once they are accepted. -/

/-- The branches that looking for moves, interrupting and following items of the
table lead to, where no item is followed once the branch is accepted. -/
inductive Orderly (problem : Problem S) : Branch S → Prop
  | start : Orderly problem problem.start
  | looked {branch : Branch S} (orderly : Orderly problem branch) :
      Orderly problem (problem.nextMoves branch).2
  | interrupted {branch : Branch S} (orderly : Orderly problem branch) :
      Orderly problem branch.interrupt
  | moved {branch : Branch S} {symbol : S} {item : Item S} (orderly : Orderly problem branch)
      (unfinished : branch.done = false) (mem : item ∈ problem.table.items symbol) :
      Orderly problem (problem.apply (.ofItem item) branch).branch

theorem Orderly.reachable (orderly : problem.Orderly branch) : problem.Reachable branch := by
  induction orderly with
  | start => exact .start
  | looked _ ih => exact ih.looked
  | interrupted _ ih => exact ih.interrupted
  | moved _ _ mem ih => exact ih.moved (knows_of_mem_items mem)

/-- Whichever operation such a branch has failed in, it was not accepted before. -/
theorem Orderly.unfinished (orderly : problem.Orderly branch) {error : ParseError S}
    (failed : branch.error = some error) : branch.done = false := by
  induction orderly with
  | start =>
    exact congrArg Branch.done (start_of_empty (empty_of_start failed))
  | @looked before orderly ih =>
    cases going : before.isOver with
    | true =>
      rw [nextMoves_of_isOver going] at failed ⊢
      exact ih failed
    | false =>
      have standing := standing_nextMoves problem orderly.reachable.clean
      exact (Branch.standing_eq_iff.1 standing).2.2.trans (Branch.isOver_eq_false_iff.1 going).1
  | @interrupted before orderly ih =>
    cases going : before.isOver with
    | true =>
      rw [interrupt_of_isOver going] at failed ⊢
      exact ih failed
    | false =>
      have standing := standing_interrupt before
      exact (Branch.standing_eq_iff.1 standing).2.2.trans (Branch.isOver_eq_false_iff.1 going).1
  | @moved before symbol item orderly unfinished mem ih =>
    cases alive : before.error with
    | some first =>
      rw [apply_of_failed problem _ alive]
      exact unfinished
    | none =>
      -- The branch fails by this very move, which was made while it was not accepted.
      have refused := (error_apply problem _ alive).symm.trans failed
      obtain ⟨after, refuses, happly⟩ := refuses_apply orderly.reachable.clean alive refused
      rw [happly]
      exact (done_of_refuses mem refuses).trans unfinished

end Problem

/-! ## §3. What becomes of a branch that is over. -/

/-- Where no item is followed in an accepted branch, no branch is both accepted
and failed.  Whatever operations have led to a branch that is over, looking for
moves and interrupting change nothing in it, and no move does if it has failed.
If it is accepted and has not failed, a move is made as in any other branch: it
counts, and its failure, if it is refused, is noted; the branch stays accepted. -/
theorem ended_stays_ended {problem : Problem S} {branch : Branch S}
    (reachable : problem.Reachable branch) :
    (problem.Orderly branch → ¬(branch.done = true ∧ branch.error.isSome = true)) ∧
    (branch.isOver = true →
      problem.nextMoves branch = ([], branch) ∧ branch.interrupt = branch ∧
      (branch.error.isSome = true → ∀ move, problem.apply move branch = ⟨branch, branch.error⟩) ∧
      (branch.error = none → ∀ move,
        (problem.apply move branch).branch.done = true ∧
        (problem.apply move branch).branch.steps = branch.steps + 1 ∧
        (problem.apply move branch).branch.error = (problem.apply move branch).error ∧
        problem.Leaves move.item branch (problem.apply move branch).branch)) := by
  refine ⟨?_, fun ended => ⟨Problem.nextMoves_of_isOver ended, Problem.interrupt_of_isOver ended, ?_, ?_⟩⟩
  · rintro orderly ⟨accepted, failed⟩
    obtain ⟨error, herror⟩ := Option.isSome_iff_exists.1 failed
    have unfinished := orderly.unfinished herror
    rw [accepted] at unfinished
    cases unfinished
  · intro failed move
    obtain ⟨error, herror⟩ := Option.isSome_iff_exists.1 failed
    rw [herror]
    exact Problem.apply_of_failed problem move herror
  · intro alive move
    have accepted : branch.done = true := by
      rw [Branch.isOver, alive] at ended
      exact (Bool.or_false _).symm.trans ended
    have leaves : problem.Leaves move.item branch (problem.apply move branch).branch :=
      Problem.leaves_apply_of_done move reachable.clean accepted alive
    exact ⟨leaves.done accepted, Problem.steps_apply problem move alive,
      Problem.error_apply problem move alive, leaves⟩

/-- The token `a`, and the rule `S => a`. -/
def unitProblem : Problem Symbol where
  table := .ofRuleSet ⟨[⟨0, .nonTerminal "S", [.terminal "a"]⟩], by decide, by decide, by decide⟩
  stream := .ofKinds [.terminal "a"]

/-- The move that follows the item of this rule. -/
def unitMove : Move Symbol :=
  .ofItem (unitProblem.table.rules.itemAt ⟨0, .nonTerminal "S", [.terminal "a"]⟩ 0)

/-- The branch accepted by this move proposes nothing, but makes the same move
again; refused, it does not make it a third time. -/
theorem ended_stays_ended_unit :
    ∃ accepted failed, unitProblem.Orderly accepted ∧ unitProblem.Reachable failed ∧
      ¬(accepted.done = true ∧ accepted.error.isSome = true) ∧
      unitProblem.nextMoves accepted = ([], accepted) ∧ accepted.interrupt = accepted ∧
      (unitProblem.apply unitMove accepted).branch = failed ∧
      failed.done = true ∧ failed.steps = accepted.steps + 1 ∧ failed.error.isSome = true ∧
      unitProblem.apply unitMove failed = ⟨failed, failed.error⟩ := by
  have known : unitProblem.Knows unitMove := by
    decide +kernel
  have orderly : unitProblem.Orderly (unitProblem.apply unitMove unitProblem.start).branch := by
    obtain ⟨_, _, mem⟩ := known
    exact .moved .start (by decide +kernel) mem
  generalize haccepted : (unitProblem.apply unitMove unitProblem.start).branch = accepted at orderly
  have reachable := orderly.reachable
  have going : accepted.isOver = true ∧ accepted.error = none := by
    subst haccepted
    decide +kernel
  have ended : (unitProblem.apply unitMove accepted).branch.isOver = true ∧
      (unitProblem.apply unitMove accepted).branch.error.isSome = true := by
    subst haccepted
    decide +kernel
  obtain ⟨apart, kept⟩ := ended_stays_ended reachable
  obtain ⟨none, same, _, moved⟩ := kept going.1
  obtain ⟨done, counted, _⟩ := moved going.2 unitMove
  obtain ⟨_, _, final, _⟩ := (ended_stays_ended (reachable.moved known)).2 ended.1
  exact ⟨accepted, _, orderly, reachable.moved known, apart orderly, none, same, rfl, done, counted,
    ended.2, final ended.2 unitMove⟩

/-- Following the same item twice leads to a branch that is both accepted and
failed, and counts a move that the branch as it was accepted did not. -/
theorem accepted_branch_fails :
    let accepted := (unitProblem.apply unitMove unitProblem.start).branch
    let failed := (unitProblem.apply unitMove accepted).branch
    unitProblem.Reachable accepted ∧ unitProblem.Reachable failed ∧
      accepted.done = true ∧ accepted.error = none ∧
      failed.done = true ∧ failed.error.isSome = true ∧ failed.steps ≠ accepted.steps := by
  intro accepted failed
  have known : unitProblem.Knows unitMove := by
    decide +kernel
  have reachable : unitProblem.Reachable accepted := Problem.Reachable.start.moved known
  exact ⟨reachable, reachable.moved known, by decide +kernel, by decide +kernel,
    by decide +kernel, by decide +kernel, by decide +kernel⟩

end ShiftReduce
