/-
  ShiftReduce.Proofs.Bare.Prediction
  ────────────────────────────────
  **BARE BRANCHES PROPOSE THE SAME MOVES.**

  The candidates are filtered by kinds, by the depth of the stack and by the kind
  of the next token, which is found by a link.  A bare branch proposes the same
  moves, or fails for the same cause.  Only the position of that failure may be
  another one even when bare, since one place after the top is no place of a token.

  Main statements: `Inspection.run_bare` and `Problem.nextMoves_bare`.
-/
import ShiftReduce.Branch.Prediction
import ShiftReduce.Proofs.Bare.Branch

namespace ShiftReduce

variable {S : Type} [GrammarSymbol S] [DecidableEq S]

/-! ## §1. Inspecting the stack. -/

/-- An inspection looks at kinds, and pops as much of the bare stack. -/
theorem Inspection.run_bare (inspection : Inspection S) (items popped : List (Token S)) :
    inspection.run (items.map Token.bare) (popped.map Token.bare) =
      ((inspection.run items popped).1, (inspection.run items popped).2.map Token.bare) := by
  -- By induction on the stack; what the inspection knows changes with every token popped.
  induction items generalizing inspection popped with
  | nil => rfl
  | cons top items ih =>
    rw [List.map_cons, run, run]
    by_cases decided : inspection.settle.isDecided = true
    · rw [if_pos decided, if_pos decided]
      rfl
    · rw [if_neg decided, if_neg decided, Token.kind_bare, ← List.map_cons, ih]

/-! ## §2. Predicting. -/

namespace Problem

/-- The branch that has predicted, bare, and what it has come to: the moves, or the
failure without the place of its position. -/
def bareOutcome (predicted : Branch S × Except (ParseError S) (List (Move S))) :
    Branch S × Except (ParseError S) (List (Move S)) :=
  (predicted.1.bare, predicted.2.mapError ParseError.bare)

variable (problem : Problem S) (branch : Branch S)

omit [DecidableEq S] in
theorem bareOutcome_ok (moves : List (Move S)) :
    bareOutcome (branch.bare, .ok moves) = bareOutcome (branch, .ok moves) := by
  unfold bareOutcome
  rw [Branch.bare_bare]

omit [DecidableEq S] in
/-- Failures for one cause are the same when bare, if both have a position or neither has. -/
theorem bareOutcome_error (kind : ErrorKind S) {position position' : Option Nat}
    (same : position'.map (fun _ => 0) = position.map fun _ => 0) :
    bareOutcome (branch.bare, .error (branch.bare.errorAt kind position')) =
      bareOutcome (branch, .error (branch.errorAt kind position)) := by
  have errors : (branch.bare.errorAt kind position').bare = (branch.errorAt kind position).bare := by
    unfold Branch.errorAt ParseError.bare
    dsimp only
    rw [same]
    rfl
  show (branch.bare.bare, Except.error (branch.bare.errorAt kind position').bare) = _
  rw [Branch.bare_bare, errors]
  rfl

omit [DecidableEq S] in
theorem bareOutcome_failed (error : ParseError S) :
    bareOutcome (branch.bare, .error error.bare) = bareOutcome (branch, .error error) := by
  show (branch.bare.bare, Except.error error.bare.bare) = (branch.bare, Except.error error.bare)
  rw [Branch.bare_bare, ParseError.bare_bare]

theorem candidates_bare (depth : Nat) (items : List (Item S)) :
    problem.bare.candidates branch.bare depth items = problem.candidates branch depth items := by
  have size : problem.bare.stream.size = problem.stream.size := problem.stream.size_bare
  unfold candidates
  rw [size]
  rfl

/-- Candidates are told apart in the same way. -/
theorem disambiguate_bare (top : Token S) (lookahead : Option S) (candidates : List (Item S)) :
    bareOutcome (disambiguate branch.bare top.bare lookahead candidates) =
      bareOutcome (disambiguate branch top lookahead candidates) := by
  unfold disambiguate
  dsimp only
  generalize candidates.filter (fun item => item.admits lookahead) = live
  by_cases none : live.isEmpty = true
  · rw [if_pos none, if_pos none]
    exact bareOutcome_error branch _ rfl
  · rw [if_neg none, if_neg none]
    -- The lookahead leaves the same candidates, and the inspection goes equally deep for them.
    have inspected : (Inspection.ofItems live).run branch.bare.stack.items branch.bare.stack.popped = _ :=
      (Inspection.ofItems live).run_bare branch.stack.items branch.stack.popped
    rw [inspected]
    obtain ⟨inspection, stack⟩ := (Inspection.ofItems live).run branch.stack.items branch.stack.popped
    dsimp only
    rw [Token.kind_bare]
    by_cases lost : inspection.solutions.isEmpty = true
    · rw [if_pos lost, if_pos lost]
      exact bareOutcome_error { branch with stack } _ rfl
    · rw [if_neg lost, if_neg lost]
      exact bareOutcome_ok ({ branch with stack }.consider inspection.solutions) _

/-- A bare branch predicts the same moves, or fails for the same cause. -/
theorem predict_bare :
    bareOutcome (problem.bare.predict branch.bare) = bareOutcome (problem.predict branch) := by
  have pop : branch.bare.stack.pop? =
      branch.stack.pop?.map fun popped => (popped.1.bare, popped.2.map Token.bare) :=
    branch.stack.pop?_map Token.bare
  rw [predict, predict, pop]
  cases branch.stack.pop? with
  | none => exact bareOutcome_error branch _ rfl
  | some popped =>
    obtain ⟨top, stack⟩ := popped
    have table : problem.bare.table = problem.table := rfl
    have depth : branch.bare.stack.size = branch.stack.size := branch.stack.size_map Token.bare
    dsimp only [Option.map_some]
    rw [Token.kind_bare, table, depth, candidates_bare, isSettled_bare, Branch.stackKinds_bare]
    by_cases unknown : (problem.table.items top.kind).isEmpty = true
    · rw [if_pos unknown, if_pos unknown]
      exact bareOutcome_error { branch with stack } _ rfl
    · rw [if_neg unknown, if_neg unknown]
      cases problem.candidates branch branch.stack.size (problem.table.items top.kind) with
      | nil =>
        -- No item fits: either there is input left for one that accepts, or the items
        -- say what they miss.
        have consumed := problem.checkConsumed_bare ({ branch with stack }.consider [])
        have looked : { branch.bare with stack := stack.map Token.bare }.consider [] =
            ({ branch with stack }.consider []).bare := rfl
        dsimp only
        rw [looked, consumed]
        by_cases accepts : ((problem.table.items top.kind).any fun item =>
            item.isAccept && item.span = branch.stack.size) = true
        · rw [if_pos accepts, if_pos accepts]
          generalize problem.checkConsumed _ = checked
          obtain ⟨_, refused⟩ := checked
          cases refused with
          | none => exact bareOutcome_error ({ branch with stack }.consider []) _ rfl
          | some error => exact bareOutcome_failed ({ branch with stack }.consider []) error
        · rw [if_neg accepts, if_neg accepts]
          exact bareOutcome_error ({ branch with stack }.consider []) _ rfl
      | cons first others =>
        cases others with
        | nil => exact bareOutcome_ok ({ branch with stack }.consider [first]) _
        | cons second others =>
          have lookahead := top.lookaheadKind?_bare problem.stream
          show bareOutcome (disambiguate _ _ (top.bare.lookaheadKind? problem.stream.bare) _) = _
          rw [lookahead]
          exact disambiguate_bare ({ branch with stack }.consider (first :: second :: others)) top _ _

/-! ## §3. Proposing. -/

omit [DecidableEq S] in
/-- Pops are undone in a bare branch as in the branch. -/
theorem bare_restored : ({ branch with stack := branch.stack.rollback } : Branch S).bare =
    { branch.bare with stack := branch.bare.stack.rollback } := by
  have stack : branch.bare.stack.rollback = branch.stack.rollback.map Token.bare :=
    branch.stack.rollback_map Token.bare
  rw [stack]
  rfl

/-- A bare branch proposes the same moves, and is left alike. -/
theorem nextMoves_bare :
    (problem.bare.nextMoves branch.bare).1 = (problem.nextMoves branch).1 ∧
      (problem.bare.nextMoves branch.bare).2.bare = (problem.nextMoves branch).2.bare := by
  unfold nextMoves
  rw [Branch.isOver_bare]
  by_cases isOver : branch.isOver = true
  · rw [if_pos isOver, if_pos isOver]
    exact ⟨rfl, branch.bare_bare⟩
  · rw [if_neg isOver, if_neg isOver]
    have predicted : bareOutcome (problem.bare.predict (branch.bare.enter .predict)) = _ :=
      problem.predict_bare (branch.enter .predict)
    generalize problem.predict (branch.enter .predict) = foreseen at predicted ⊢
    generalize problem.bare.predict (branch.bare.enter .predict) = foreseen' at predicted ⊢
    obtain ⟨inspected, outcome⟩ := foreseen
    obtain ⟨inspected', outcome'⟩ := foreseen'
    obtain ⟨same, outcomes⟩ := Prod.mk.inj predicted
    have restored : ({ inspected' with stack := inspected'.stack.rollback } : Branch S).bare =
        ({ inspected with stack := inspected.stack.rollback } : Branch S).bare := by
      rw [bare_restored, bare_restored, show inspected'.bare = inspected.bare from same]
    -- Both have moves, and the same ones, or both have failed.
    cases outcome with
    | ok moves =>
      cases outcome' with
      | ok moves' => exact ⟨Except.ok.inj outcomes, restored⟩
      | error error' => cases outcomes
    | error error =>
      cases outcome' with
      | ok moves' => cases outcomes
      | error error' =>
        have errors : error'.bare = error.bare := Except.error.inj outcomes
        refine ⟨rfl, ?_⟩
        dsimp only
        rw [← Branch.fail_bare, ← Branch.fail_bare, restored, errors]

end Problem

end ShiftReduce
