/-
  ShiftReduce.Proofs.RefusedMoves
  ────────────────────────────────
  **WHAT A REFUSED MOVE LEAVES OF A BRANCH.**

  A reduction pops its right-hand side tree by tree, and may find after any of
  them that the stack is not as it should be; everything is then put back.  What
  has been shifted or reduced before a later check refuses it stays on the stack.
  So the failure tells what the branch has been left with.

  Main statement: `refused_move_kept`.
-/
import ShiftReduce.Proofs.Branch.Reachable
import ShiftReduce.Proofs.Branch.Tally
import ShiftReduce.Symbol.Named

namespace ShiftReduce

variable {S : Type} [DecidableEq S] [GrammarSymbol S]

namespace Problem

variable {problem : Problem S} {before after : Branch S} {item : Item S} {error : ParseError S}

/-! ## §1. What a failure tells. -/

/-- The stack and the cursor after a move for the rule has been refused.  If the
input was used up, the stack was not as the rule has it, or a token was left, they
are as before.  If the token announced was another one, it has been shifted.  If
the node of the rule may not sit where it is, it is there all the same. -/
def LeavesBehind (problem : Problem S) (rule : Rule S) (before after : Branch S)
    (error : ParseError S) : Prop :=
  match error.kind, error.phase with
  | .endOfStream, .shift | .reductionMismatch _ _, .reduce | .noApplicableRule _ _, .accept =>
    after.stack = before.stack ∧ after.cursor = before.cursor
  | .hintMismatch _ _, .checkBranch =>
    ∃ token, problem.stream.get? before.cursor = some token ∧
      after.stack = before.stack.push token ∧ after.cursor = before.cursor + 1
  | .noApplicableRule _ _, .checkBranch =>
    ∃ children rest, children.map Token.kind = rule.rhs ∧
      before.stack = ⟨children.reverse ++ rest, []⟩ ∧
      after.stack = ⟨Token.reduce rule.lhs children :: rest, []⟩ ∧ after.cursor = before.cursor
  | _, _ => False

/-- Whichever way a move for an item of the table is refused, its failure tells
what it leaves behind. -/
theorem leavesBehind_of_refuses {symbol : S} (clean : before.stack.popped = [])
    (mem : item ∈ problem.table.items symbol)
    (refuses : problem.Refuses (.ofItem item) before after error) :
    problem.LeavesBehind item.rule before after error := by
  cases refuses with
  | exhausted => exact ⟨rfl, rfl⟩
  | mismatched => exact ⟨rfl, rfl⟩
  | unconsumed => exact ⟨rfl, rfl⟩
  | @unseated children rest _ _ items kinds =>
    refine ⟨children, rest, kinds, ?_, rfl, rfl⟩
    rw [← items, ← clean]
  | unannounced rewrites hint =>
    obtain ⟨token, next, rfl, rfl⟩ := rewrites.shifts_of_hint mem hint
    exact ⟨token, next, congrArg (UndoStack.mk _) clean.symm, rfl⟩

end Problem

/-! ## §2. Moves that are refused. -/

/-- A move that follows an item of the table and is refused in a branch that is
not over leaves its failure in the branch, counts, and leaves behind what the
failure tells; the branch is not accepted.  Every later move is refused with the
same failure and changes nothing. -/
theorem refused_move_kept {problem : Problem S} {branch : Branch S} {symbol : S} {item : Item S}
    {error : ParseError S} (reachable : problem.Reachable branch) (going : branch.isOver = false)
    (mem : item ∈ problem.table.items symbol)
    (refused : (problem.apply (.ofItem item) branch).error = some error) :
    (problem.apply (.ofItem item) branch).branch.error = some error ∧
    (problem.apply (.ofItem item) branch).branch.done = false ∧
    (problem.apply (.ofItem item) branch).branch.steps = branch.steps + 1 ∧
    problem.LeavesBehind item.rule branch (problem.apply (.ofItem item) branch).branch error ∧
    ∀ move, problem.apply move (problem.apply (.ofItem item) branch).branch =
      ⟨(problem.apply (.ofItem item) branch).branch, some error⟩ := by
  obtain ⟨unfinished, alive⟩ := Branch.isOver_eq_false_iff.1 going
  have noted := (Problem.error_apply problem (.ofItem item) alive).trans refused
  obtain ⟨after, refuses, happly⟩ := Problem.refuses_apply reachable.clean alive refused
  refine ⟨noted, ?_, Problem.steps_apply problem _ alive, ?_, fun move =>
    Problem.apply_of_failed problem move noted⟩
  · rw [happly]
    exact (Problem.done_of_refuses mem refuses).trans unfinished
  · rw [happly]
    -- Counting the move and noting the failure change neither stack nor cursor.
    have clean : (Problem.counted (.ofItem item) branch).stack.popped = [] := reachable.clean
    have leaves := Problem.leavesBehind_of_refuses clean mem refuses
    exact leaves

/-- The tokens `d b c`, and the rule `S => a b c`. -/
def chainProblem : Problem Symbol where
  table := .ofRuleSet
    ⟨[⟨0, .nonTerminal "S", [.terminal "a", .terminal "b", .terminal "c"]⟩],
      by decide, by decide, by decide⟩
  stream := .ofKinds [.terminal "d", .terminal "b", .terminal "c"]

/-- The item of this rule with the dot on the symbol of this index. -/
def chainItem (index : Nat) : Item Symbol :=
  chainProblem.table.rules.itemAt
    ⟨0, .nonTerminal "S", [.terminal "a", .terminal "b", .terminal "c"]⟩ index

/-- The reduction finds a `c`, a `b` and then no `a`; the stack is as it was before. -/
theorem refused_move_kept_chain :
    ∃ branch, chainProblem.Reachable branch ∧ branch.isOver = false ∧
      branch.stackKinds = [.terminal "d", .terminal "b", .terminal "c"] ∧
      ∃ error, (chainProblem.apply (.ofItem (chainItem 2)) branch).error = some error ∧
        error.message = "[reduce] cannot reduce, expecting a, got d" ∧
        (chainProblem.apply (.ofItem (chainItem 2)) branch).branch.steps = branch.steps + 1 ∧
        (chainProblem.apply (.ofItem (chainItem 2)) branch).branch.stack = branch.stack ∧
        (chainProblem.apply (.ofItem (chainItem 2)) branch).branch.cursor = branch.cursor := by
  have known : ∀ move ∈ [0, 1].map fun index => Move.ofItem (chainItem index),
      chainProblem.Knows move := by
    decide +kernel
  have mem : chainItem 2 ∈ chainProblem.table.items (.terminal "c") := by
    decide +kernel
  have reachable := Problem.Reachable.replay known
  generalize hbranch : chainProblem.machine.replay
    ([0, 1].map fun index => Move.ofItem (chainItem index)) = branch at reachable
  have going : branch.isOver = false := by
    subst hbranch
    decide +kernel
  have refused : (chainProblem.apply (.ofItem (chainItem 2)) branch).error =
      some ⟨.reductionMismatch (.ofList [.terminal "a"]) (some (.terminal "d")), .reduce, some 0⟩ := by
    subst hbranch
    decide +kernel
  obtain ⟨_, _, counted, ⟨stack, cursor⟩, _⟩ := refused_move_kept reachable going mem refused
  refine ⟨branch, reachable, going, ?_, _, refused, by decide +kernel, counted, stack, cursor⟩
  subst hbranch
  decide +kernel

end ShiftReduce
