/-
  ShiftReduce.Search.Machine
  ────────────────────────────────
  **WHAT A SEARCH EXPLORES.**

  A machine has states that propose moves and make them.  The branches of a
  parsing problem are one; the search itself asks for nothing more than a
  machine, so that machines that predict or check differently can be searched
  in the same way.
-/
import ShiftReduce.Branch.Application
import ShiftReduce.Branch.Prediction

namespace ShiftReduce

/-! ## §1. Machines. -/

/-- States that propose moves, make them, and end in results. -/
structure Machine (S : Type) [GrammarSymbol S] (σ μ : Type) where
  /-- The state before any move. -/
  start : σ
  /-- The state has come to an end. -/
  isOver : σ → Bool
  /-- The moves to choose from, and the state after it has looked for them. -/
  moves : σ → List μ × σ
  /-- The state after a move, and whether the move was refused. -/
  play : σ → μ → σ × Bool
  /-- Ends a state that has not come to an end. -/
  interrupt : σ → σ
  /-- What the state ends in. -/
  result : σ → ParseResult S

namespace Machine

variable {S : Type} [GrammarSymbol S] {σ μ : Type}

/-- The state after the given moves, up to the first one refused. -/
def resume (machine : Machine S σ μ) : σ → List μ → σ
  | state, [] => state
  | state, move :: rest =>
    match machine.play state move with
    | (state, true) => state
    | (state, false) => machine.resume state rest

/-- The state that the given moves lead to from the beginning. -/
def replay (machine : Machine S σ μ) (history : List μ) : σ :=
  machine.resume machine.start history

end Machine

/-! ## §2. Branches as states. -/

/-- The branches of a problem. -/
def Problem.machine {S : Type} [DecidableEq S] [GrammarSymbol S] (problem : Problem S) :
    Machine S (Branch S) (Move S) :=
  { start := problem.start
    isOver := Branch.isOver
    moves := problem.nextMoves
    play := fun branch move =>
      let attempt := problem.apply move branch
      (attempt.branch, attempt.error.isSome)
    interrupt := Branch.interrupt
    result := Branch.result }

end ShiftReduce
