/-
  ShiftReduce.ParseResult
  ────────────────────────────────
  **WHAT A BRANCH ENDS IN.**

  The trees left on the stack and, unless the branch was accepted, the failure.
-/
import ShiftReduce.ParseError
import ShiftReduce.Token

namespace ShiftReduce

variable {S : Type}

/-- What a branch ends in: its stack from the top down, a single tree if the
branch is accepted, and the failure if it is not. -/
structure ParseResult (S : Type) [GrammarSymbol S] where
  forest : List (ParseTree S)
  error : Option (ParseError S)
  deriving DecidableEq

namespace ParseResult

variable [GrammarSymbol S]

/-- There is no failure. -/
def isAccepted (result : ParseResult S) : Bool :=
  result.error.isNone

theorem eq_of_isAccepted {result : ParseResult S} {tree : ParseTree S} (accepted : result.isAccepted = true)
    (forest : result.forest = [tree]) : result = ⟨[tree], none⟩ := by
  obtain ⟨_, error⟩ := result
  cases forest
  cases error with
  | none => rfl
  | some error => cases accepted

/-- The tree of an accepted branch. -/
def tree? (result : ParseResult S) : Option (ParseTree S) :=
  match result.forest, result.error with
  | [tree], none => some tree
  | _, _ => none

end ParseResult

end ShiftReduce
