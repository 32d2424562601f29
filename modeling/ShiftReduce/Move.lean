/-
  ShiftReduce.Move
  ────────────────────────────────
  **THE MOVES OF A BRANCH.**

  A move follows an item.  Its hint is the symbol that has to be on top of the
  stack afterwards; for the moves that prediction proposes it is the symbol
  after the dot.
-/
import ShiftReduce.Item

namespace ShiftReduce

variable {S : Type} [GrammarSymbol S]

/-- An item to follow, and the symbol expected on top of the stack afterwards. -/
structure Move (S : Type) [GrammarSymbol S] where
  item : Item S
  hint : Option S
  deriving DecidableEq

namespace Move

/-- The move that follows an item and expects the symbol after its dot. -/
def ofItem (item : Item S) : Move S :=
  ⟨item, item.next?⟩

/-- The move as it is shown: its action, then its item. -/
def text (move : Move S) : String :=
  move.item.action.text ++ " " ++ move.item.text

end Move

end ShiftReduce
