/-
  ShiftReduce.Proofs.Bare.Branch
  ────────────────────────────────
  **BARE BRANCHES MAKE THE SAME MOVES.**

  Making a move compares kinds and follows links.  Texts go into trees and
  positions into failures, and nothing ever comes back from there, so whatever a
  move makes of a branch it makes of the bare branch as well.

  Main statements: `Problem.apply_bare` and `Problem.start_bare`.
-/
import ShiftReduce.Proofs.Bare.Results
import ShiftReduce.Proofs.Branch.Transition

namespace ShiftReduce

variable {S : Type} [GrammarSymbol S]

/-! ## §1. Branches. -/

namespace Branch

/-- The branch with its stack and its failure bare; the rest of it has no text and
no position. -/
def bare (branch : Branch S) : Branch S :=
  { branch with
    stack := branch.stack.map Token.bare
    error := branch.error.map ParseError.bare }

variable (branch : Branch S)

@[simp]
theorem bare_bare : branch.bare.bare = branch.bare := by
  have tokens : Token.bare ∘ (Token.bare : Token S → Token S) = Token.bare :=
    funext fun token => token.bare_bare
  have errors : ParseError.bare ∘ (ParseError.bare : ParseError S → ParseError S) = ParseError.bare :=
    funext fun error => error.bare_bare
  unfold bare UndoStack.map
  dsimp only
  rw [List.map_map, List.map_map, tokens, Option.map_map, errors]

@[simp]
theorem isOver_bare : branch.bare.isOver = branch.isOver :=
  congrArg (branch.done || ·) Option.isSome_map

@[simp]
theorem stackKinds_bare : branch.bare.stackKinds = branch.stackKinds := by
  show (branch.stack.map Token.bare).toList.map Token.kind = _
  rw [UndoStack.toList_map, Token.map_kind_bare]
  rfl

theorem result_bare : branch.bare.result = branch.result.bare := by
  unfold result ParseResult.bare
  show ParseResult.mk ((branch.stack.map Token.bare).drain.map Token.erase) _ = _
  rw [UndoStack.drain_map, List.map_map, List.map_map]
  congr 1
  exact List.map_congr_left fun token _ => token.erase_bare

theorem fail_bare (error : ParseError S) : branch.bare.fail error.bare = (branch.fail error).bare := by
  unfold fail bare
  rw [Option.map_or, Option.map_some]
  rfl

/-- The failure of a bare branch, whatever the positions that it is given. -/
theorem errorAt_bare (kind : ErrorKind S) {position position' : Option Nat}
    (same : position' = position.map fun _ => 0) :
    branch.bare.errorAt kind position' = (branch.errorAt kind position).bare := by
  rw [same]
  rfl

theorem topPosition?_bare : branch.bare.topPosition? = branch.topPosition?.map fun _ => 0 := by
  unfold topPosition?
  show (branch.stack.map Token.bare).peek?.map Token.position = _
  rw [UndoStack.peek?_map, Token.position_found_bare]

theorem interrupt_bare : branch.bare.interrupt = branch.interrupt.bare := by
  unfold interrupt
  rw [isOver_bare]
  split
  · rfl
  · show ((branch.enter .complete).bare).fail
        ((branch.enter .complete).bare.errorAt (.unfinishedParse (branch.enter .complete).bare.stackKinds)
          (branch.enter .complete).bare.topPosition?) = _
    rw [stackKinds_bare, errorAt_bare _ _ (topPosition?_bare _), fail_bare]

end Branch

/-! ## §2. Attempts. -/

namespace Attempt

/-- The attempt with its branch and its failure bare. -/
def bare (attempt : Attempt S) : Attempt S :=
  { branch := attempt.branch.bare
    error := attempt.error.map ParseError.bare }

/-- Operations in sequence are made of a bare branch as well if each of them is. -/
theorem andThen_bare (attempt : Attempt S) {next next' : Branch S → Attempt S}
    (same : ∀ branch, next' branch.bare = (next branch).bare) :
    attempt.bare.andThen next' = (attempt.andThen next).bare := by
  obtain ⟨branch, error⟩ := attempt
  cases error with
  | none => exact same branch
  | some error => rfl

/-- A bare branch is refused for the same cause. -/
theorem refusal_bare (branch : Branch S) (kind : ErrorKind S) (found : Option (Token S)) :
    refusal branch.bare kind ((found.map Token.bare).map Token.position) =
      (refusal branch kind (found.map Token.position)).bare := by
  rw [refusal, branch.errorAt_bare kind (Token.position_found_bare found)]
  rfl

end Attempt

variable [DecidableEq S]

/-! ## §3. Problems. -/

/-- The same table with the bare stream. -/
def Problem.bare (problem : Problem S) : Problem S :=
  { problem with stream := problem.stream.bare }

omit [GrammarSymbol S] in
/-- The same pops are made, and the one that fails is the same. -/
theorem popSymbols_bare (symbols : List S) (stack : UndoStack (Token S)) :
    popSymbols symbols (stack.map Token.bare) =
      ((popSymbols symbols stack).1.map Token.bare,
        (popSymbols symbols stack).2.map fun refused => (refused.1, refused.2.map Token.bare)) := by
  -- By induction on the symbols asked for, over the stack that is left after each pop.
  induction symbols generalizing stack with
  | nil => rfl
  | cons symbol rest ih =>
    rw [popSymbols, popSymbols, UndoStack.pop?_map]
    cases stack.pop? with
    | none => rfl
    | some popped =>
      obtain ⟨top, below⟩ := popped
      dsimp only [Option.map_some]
      rw [Token.kind_bare]
      by_cases agrees : top.kind = symbol
      · rw [if_pos agrees, if_pos agrees, ih]
      · rw [if_neg agrees, if_neg agrees]
        rfl

/-! ## §4. Making moves. -/

namespace Problem

variable (problem : Problem S) (branch : Branch S)

@[simp]
theorem isSettled_bare : problem.bare.isSettled branch.bare = problem.isSettled branch := by
  have left : problem.bare.stream.lexemes.drop branch.bare.cursor =
      (problem.stream.lexemes.drop branch.cursor).map Lexeme.bare := List.map_drop.symm
  rw [isSettled, isSettled, left]
  -- What is left is looked at no further than its second token.
  match problem.stream.lexemes.drop branch.cursor with
  | [] => rfl
  | [_] => rfl
  | _ :: _ :: _ => rfl

theorem checkConsumed_bare : problem.bare.checkConsumed branch.bare = (problem.checkConsumed branch).bare := by
  have next : problem.bare.stream.lexemes[branch.bare.cursor]? =
      problem.stream.lexemes[branch.cursor]?.map Lexeme.bare := List.getElem?_map
  rw [checkConsumed, checkConsumed, next]
  cases problem.stream.lexemes[branch.cursor]? with
  | none => rfl
  | some lexeme => rfl

theorem shift_bare : problem.bare.shift branch.bare = (problem.shift branch).bare := by
  have next : problem.bare.stream.get? (branch.bare.enter .shift).cursor =
      (problem.stream.get? (branch.enter .shift).cursor).map Token.bare :=
    problem.stream.get?_bare branch.cursor
  rw [shift, shift, next]
  cases problem.stream.get? (branch.enter .shift).cursor with
  | none => rfl
  | some token => rfl

theorem contract_bare (rule : Rule S) :
    problem.bare.contract rule branch.bare = (problem.contract rule branch).bare := by
  have stack : (branch.bare.enter .reduce).stack = (branch.enter .reduce).stack.map Token.bare := rfl
  rw [contract, contract, stack, popSymbols_bare]
  obtain ⟨stack, refused⟩ := popSymbols rule.rhs.reverse (branch.enter .reduce).stack
  cases refused with
  -- All symbols were there: the tokens popped become the children of the new top.
  | none =>
    show Attempt.success { branch.bare.enter .reduce with
      stack := (stack.map Token.bare).commit.2.push
        (Token.reduce rule.lhs (stack.map Token.bare).commit.1.reverse) } = _
    rw [UndoStack.commit_map, ← List.map_reverse, ← Token.bare_reduce]
    rfl
  -- One of them was not: what has been popped comes back, and the failure says what was found.
  | some refused =>
    obtain ⟨symbol, found⟩ := refused
    show Attempt.refusal { branch.bare.enter .reduce with stack := (stack.map Token.bare).rollback }
      (.reductionMismatch ((problem.table.first symbol).insert symbol)
        ((found.map Token.bare).map Token.kind)) ((found.map Token.bare).map Token.position) = _
    rw [UndoStack.rollback_map, Token.kind_found_bare]
    exact Attempt.refusal_bare { branch.enter .reduce with stack := stack.rollback } _ found

theorem checkAdjacency_bare :
    problem.bare.checkAdjacency branch.bare = (problem.checkAdjacency branch).bare := by
  have items : branch.bare.stack.items = branch.stack.items.map Token.bare := rfl
  rw [checkAdjacency, checkAdjacency, items]
  cases branch.stack.items with
  | nil => rfl
  | cons top rest =>
    -- The check compares the kind of the top with the kind below it.
    have below : (rest.map Token.bare).head?.map Token.kind = rest.head?.map Token.kind := by
      rw [List.head?_map, Token.kind_found_bare]
    rw [List.map_cons]
    dsimp only
    rw [below, Token.kind_bare, apply_ite Attempt.bare]
    congr 1
    exact Attempt.refusal_bare (branch.enter .checkBranch) _ (some top)

theorem reduce_bare (rule : Rule S) :
    problem.bare.reduce rule branch.bare = (problem.reduce rule branch).bare := by
  rw [reduce, contract_bare, reduce]
  exact Attempt.andThen_bare _ problem.checkAdjacency_bare

theorem accept_bare (rule : Rule S) :
    problem.bare.accept rule branch.bare = (problem.accept rule branch).bare := by
  unfold accept
  show ((problem.bare.checkConsumed (branch.enter .accept).bare).andThen _).andThen _ = _
  rw [checkConsumed_bare, Attempt.andThen_bare _ fun branch => problem.reduce_bare branch rule]
  exact Attempt.andThen_bare _ fun _ => rfl

theorem checkHint_bare (move : Move S) : checkHint move branch.bare = (checkHint move branch).bare := by
  obtain ⟨item, hint⟩ := move
  cases hint with
  | none => rfl
  | some expected =>
    have peeked : (branch.bare.enter .checkBranch).stack.peek? =
        (branch.enter .checkBranch).stack.peek?.map Token.bare := branch.stack.peek?_map Token.bare
    rw [checkHint, checkHint]
    dsimp only
    rw [peeked]
    cases (branch.enter .checkBranch).stack.peek? with
    | none => rfl
    | some top =>
      dsimp only [Option.map_some]
      rw [Token.kind_bare, apply_ite Attempt.bare]
      congr 1
      exact Attempt.refusal_bare (branch.enter .checkBranch) _ (some top)

/-- Each action is made of a bare branch as well, and so is the look at the hint after it. -/
theorem step_bare (move : Move S) : problem.bare.step move branch.bare = (problem.step move branch).bare := by
  unfold step
  dsimp only
  cases move.item.action with
  | shift =>
    dsimp only
    rw [shift_bare]
    exact Attempt.andThen_bare _ fun branch => checkHint_bare branch move
  | reduce =>
    dsimp only
    rw [reduce_bare]
    exact Attempt.andThen_bare _ fun branch => checkHint_bare branch move
  | accept =>
    dsimp only
    rw [accept_bare]
    exact Attempt.andThen_bare _ fun branch => checkHint_bare branch move

theorem complete_bare : problem.bare.complete branch.bare = (problem.complete branch).bare := by
  have kinds : branch.bare.stack.items.map Token.kind = branch.stack.items.map Token.kind :=
    Token.map_kind_bare branch.stack.items
  have size : problem.bare.stream.size = problem.stream.size := problem.stream.size_bare
  unfold complete
  rw [Branch.isOver_bare, kinds, isSettled_bare, size, apply_ite Branch.bare, apply_ite Branch.bare]
  rfl

/-- A move takes a bare branch to where it takes the branch. -/
theorem apply_bare (move : Move S) : problem.bare.apply move branch.bare = (problem.apply move branch).bare := by
  -- A branch that has failed refuses the move with the failure it has; otherwise the step decides.
  cases herror : branch.error with
  | some error =>
    have failed : branch.bare.error = some error.bare := congrArg (Option.map ParseError.bare) herror
    simp only [apply, herror, failed, Attempt.bare, Option.map_some]
  | none =>
    have alive : branch.bare.error = none := congrArg (Option.map ParseError.bare) herror
    have found : counted move branch.bare = (counted move branch).bare := rfl
    rw [apply_eq _ _ alive, apply_eq _ _ herror, found, step_bare]
    obtain ⟨after, refused⟩ := problem.step move (counted move branch)
    cases refused with
    | none =>
      show Attempt.success (problem.bare.complete after.bare) = _
      rw [complete_bare]
      rfl
    | some error =>
      show Attempt.mk (after.bare.fail error.bare) (some error.bare) = _
      rw [Branch.fail_bare]
      rfl

theorem start_bare : problem.bare.start = problem.start.bare := by
  have shifted : problem.bare.shift Branch.blank = (problem.shift Branch.blank).bare :=
    problem.shift_bare Branch.blank
  unfold start
  rw [shifted]
  obtain ⟨branch, error⟩ := problem.shift Branch.blank
  cases error with
  | none => exact problem.complete_bare branch
  | some error => exact branch.fail_bare error

end Problem

end ShiftReduce
