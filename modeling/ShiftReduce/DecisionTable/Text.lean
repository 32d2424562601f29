/-
  ShiftReduce.DecisionTable.Text
  ────────────────────────────────
  **SHOWING A DECISION TABLE.**
-/
import ShiftReduce.DecisionTable
import ShiftReduce.Text.Grid

namespace ShiftReduce.DecisionTable

variable {S : Type} [DecidableEq S] [GrammarSymbol S]

/-- The rows for a symbol: one for each of its items, or a row that says that
there is none. -/
def symbolRows (symbol : S) (items : List (Item S)) : List (List String) :=
  if items.isEmpty then [[GrammarSymbol.text symbol, "-", "", ""]]
  else
    items.map fun item =>
      [GrammarSymbol.text symbol, item.text, item.action.text, showSymbols ", " item.lookaheads.toList]

/-- The table as a grid, symbol by symbol. -/
def text (table : DecisionTable S) : String :=
  Grid.draw ["symbol", "item", "action", "lookaheads"]
    (table.itemIndex.flatMap fun entry => symbolRows entry.1 entry.2)

end ShiftReduce.DecisionTable
