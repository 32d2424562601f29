/-
  ShiftReduce.Proofs.Branch.Tally
  ────────────────────────────────
  **MOVES ARE COUNTED, AND FAILURES ARE NOTED.**

  The operations of a move neither count moves nor note failures; that is left
  to the move as a whole, to a search for moves and to interruptions.

  Main statements: `steps_start` and `steps_apply` (moves are counted),
  `error_apply` and `error_of_interrupt` (failures are noted).
-/
import ShiftReduce.Proofs.Branch.Machine

namespace ShiftReduce

variable {S : Type}

/-! ## §1. The tally of a branch. -/

/-- The number of moves made, and the failure noted. -/
def Branch.tally [GrammarSymbol S] (branch : Branch S) : Nat × Option (ParseError S) :=
  (branch.steps, branch.error)

/-- Two operations that keep the tally keep it one after the other. -/
theorem Attempt.tally_andThen [GrammarSymbol S] {attempt : Attempt S} {next : Branch S → Attempt S}
    {tally : Nat × Option (ParseError S)} (first : attempt.branch.tally = tally)
    (second : ∀ branch, (next branch).branch.tally = branch.tally) :
    (attempt.andThen next).branch.tally = tally := by
  unfold Attempt.andThen
  split
  · rw [second, first]
  · exact first

variable [DecidableEq S] [GrammarSymbol S]

namespace Problem

open Attempt

variable {problem : Problem S} {branch : Branch S}

/-! ## §2. The operations of a move. -/

theorem tally_shift (problem : Problem S) (branch : Branch S) :
    (problem.shift branch).branch.tally = branch.tally := by
  unfold shift
  dsimp only
  split
  · rfl
  · rfl

theorem tally_reduce (problem : Problem S) (rule : Rule S) (branch : Branch S) :
    (problem.reduce rule branch).branch.tally = branch.tally := by
  refine tally_andThen ?_ fun contracted => ?_
  · unfold contract
    dsimp only
    split
    · rfl
    · rfl
  · unfold checkAdjacency
    split
    · rfl
    · dsimp only
      split
      · rfl
      · rfl

theorem tally_checkConsumed (problem : Problem S) (branch : Branch S) :
    (problem.checkConsumed branch).branch.tally = branch.tally := by
  unfold checkConsumed
  split
  · rfl
  · rfl

theorem tally_checkHint (move : Move S) (branch : Branch S) :
    (checkHint move branch).branch.tally = branch.tally := by
  unfold checkHint
  split
  · rfl
  · dsimp only
    split
    · rfl
    · split
      · rfl
      · rfl

/-- Neither the moves made are counted in a step, nor is a failure noted. -/
theorem tally_step (problem : Problem S) (move : Move S) (branch : Branch S) :
    (problem.step move branch).branch.tally = branch.tally := by
  have followed : (problem.followWith problem.checkAdjacency move.item branch).branch.tally =
      branch.tally := by
    unfold followWith
    split
    · exact tally_shift problem branch
    · exact tally_reduce problem move.item.rule branch
    · refine tally_andThen (tally_andThen ?_ fun consumed => ?_) fun reduced => rfl
      · exact tally_checkConsumed problem (branch.enter .accept)
      · exact tally_reduce problem move.item.rule consumed
  exact tally_andThen followed (tally_checkHint move)

theorem tally_complete (problem : Problem S) (branch : Branch S) :
    (problem.complete branch).tally = branch.tally := by
  unfold complete
  split
  · rfl
  · split
    · rfl
    · rfl

/-! ## §3. Moves, interruptions and the beginning. -/

/-- A move counts, whether or not it goes through. -/
theorem steps_apply (problem : Problem S) (move : Move S) (alive : branch.error = none) :
    (problem.apply move branch).branch.steps = branch.steps + 1 := by
  have stepped := congrArg Prod.fst (tally_step problem move (counted move branch))
  rw [apply_eq problem move alive]
  split
  · exact (congrArg Prod.fst (tally_complete problem _)).trans stepped
  · exact stepped

/-- The failure that a move leaves in a branch is the one it has been refused with. -/
theorem error_apply (problem : Problem S) (move : Move S) (alive : branch.error = none) :
    (problem.apply move branch).branch.error = (problem.apply move branch).error := by
  have stepped : (problem.step move (counted move branch)).branch.error = none :=
    (congrArg Prod.snd (tally_step problem move (counted move branch))).trans alive
  rw [apply_eq problem move alive]
  split
  · exact (congrArg Prod.snd (tally_complete problem _)).trans stepped
  · next failure _ => exact Branch.error_fail stepped failure

omit [DecidableEq S] in
theorem interrupt_of_isOver (ended : branch.isOver = true) : branch.interrupt = branch := by
  rw [Branch.interrupt, if_pos ended]

omit [DecidableEq S] in
/-- The failure of an interruption lists what stands on the stack. -/
theorem error_of_interrupt (going : branch.isOver = false) :
    branch.interrupt.error =
      some ⟨.unfinishedParse branch.stackKinds, .complete, branch.topPosition?⟩ := by
  have alive : (branch.enter .complete).error = none := (Branch.isOver_eq_false_iff.1 going).2
  rw [Branch.interrupt, if_neg (by simp [going])]
  exact Branch.error_fail alive _

/-- The first token is shifted without a move. -/
theorem steps_start (problem : Problem S) : problem.start.steps = 0 := by
  have shifted : (problem.shift Branch.blank).branch.steps = 0 :=
    congrArg Prod.fst (tally_shift problem Branch.blank)
  unfold start
  dsimp only
  split
  · exact (congrArg Prod.fst (tally_complete problem _)).trans shifted
  · exact shifted

end Problem

end ShiftReduce
