/-
  ShiftReduce.Search.Verdict
  ────────────────────────────────
  **WHAT THE RESULTS OF A SEARCH AMOUNT TO.**

  The input is accepted if the accepted branches agree on one tree, ambiguous
  if they have several, and rejected if there is none.
-/
import ShiftReduce.ParseResult

namespace ShiftReduce

variable {S : Type} [GrammarSymbol S]

/-! ## §1. Verdicts. -/

/-- The overall outcome of a search. -/
inductive Verdict (S : Type) [GrammarSymbol S] where
  /-- One tree was found. -/
  | accepted (tree : ParseTree S)
  /-- Several trees were found, each listed once. -/
  | ambiguous (trees : List (ParseTree S))
  /-- No tree was found; every branch says why. -/
  | rejected (errors : List (ParseError S))
  deriving DecidableEq

namespace Verdict

/-- The first trees of the accepted results, each where it occurs first. -/
def treesOf [DecidableEq S] (results : List (ParseResult S)) : List (ParseTree S) :=
  results.foldl
    (fun trees result =>
      match result.error, result.forest with
      | none, tree :: _ => if tree ∈ trees then trees else trees ++ [tree]
      | _, _ => trees)
    []

/-- The failures, in order. -/
def errorsOf (results : List (ParseResult S)) : List (ParseError S) :=
  results.filterMap ParseResult.error

/-- The verdict on the results of a search. -/
def ofResults [DecidableEq S] (results : List (ParseResult S)) : Verdict S :=
  match treesOf results with
  | [] => .rejected (errorsOf results)
  | [tree] => .accepted tree
  | trees => .ambiguous trees

/-- One tree was found. -/
def isAccepted : Verdict S → Bool
  | accepted _ => true
  | _ => false

/-- Several trees were found. -/
def isAmbiguous : Verdict S → Bool
  | ambiguous _ => true
  | _ => false

/-- No tree was found. -/
def isRejected : Verdict S → Bool
  | rejected _ => true
  | _ => false

end Verdict

end ShiftReduce
