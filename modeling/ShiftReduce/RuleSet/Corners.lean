/-
  ShiftReduce.RuleSet.Corners
  ────────────────────────────────
  **LEFT CORNERS AND FIRST TERMINALS.**

  The left corners of a symbol are the symbols that can come first in what it
  derives when only leftmost symbols are expanded, once or more often.  They
  are collected in rounds: the rules for the symbols found in the last round
  give the symbols of the next one.  A rule never serves twice, so there are no more rounds than
  rules.
-/
import ShiftReduce.RuleSet

namespace ShiftReduce

variable {S : Type} [DecidableEq S]

/-! ## §1. The rounds. -/

/-- The symbols found from `frontier` by the rules still `waiting`, with at
most `rounds` rounds. -/
def spreadCorners : Nat → List (Rule S) → List S → List S
  | 0, _, _ => []
  | rounds + 1, waiting, frontier =>
    let firing := waiting.filter fun rule => decide (rule.lhs ∈ frontier)
    let heads := firing.filterMap fun rule => rule.rhs.head?
    if firing.isEmpty then []
    else heads ++ spreadCorners rounds (waiting.filter fun rule => !decide (rule.lhs ∈ frontier)) heads

namespace RuleSet

variable [GrammarSymbol S]

/-- The symbols that can come first when `symbol` is expanded at its left end
at least once.  The symbol itself is one of them only if the rules are
left-recursive on it. -/
def leftCorners (rules : RuleSet S) (symbol : S) : SymbolSet S :=
  SymbolSet.ofList (spreadCorners rules.toList.length rules.toList [symbol])

/-- The terminals that can come first in what `symbol` stands for; a terminal
stands for itself. -/
def first (rules : RuleSet S) (symbol : S) : SymbolSet S :=
  if GrammarSymbol.isTerminal symbol then SymbolSet.ofList [symbol]
  else (rules.leftCorners symbol).filter GrammarSymbol.isTerminal

end RuleSet

end ShiftReduce
