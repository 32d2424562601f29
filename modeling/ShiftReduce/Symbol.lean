/-
  ShiftReduce.Symbol
  ────────────────────────────────
  **GRAMMAR SYMBOLS.**

  The parser never makes a symbol, it only compares symbols and asks of each
  whether it is a terminal and whether it is an end-marker.  `GrammarSymbol S`
  says just that of a type `S`.  The order is part of the class, and lawful,
  because tables and reported lists are sorted by it; it carries no meaning for
  the grammar.
-/

namespace ShiftReduce

/-! ## §1. What the parser asks of a symbol. -/

/-- A type of grammar symbols: lawfully ordered, each symbol terminal or not,
possibly an end-marker, and with a text to show. -/
class GrammarSymbol (S : Type) extends Ord S, Std.TransOrd S, Std.LawfulEqOrd S where
  /-- The symbol is one that tokens have, and stands for itself. -/
  isTerminal : S → Bool
  /-- The symbol closes the input. -/
  isEndMarker : S → Bool
  /-- The symbol as it is shown. -/
  text : S → String

/-- The texts of `symbols`, with `separator` between two of them. -/
def showSymbols {S : Type} [GrammarSymbol S] (separator : String) (symbols : List S) : String :=
  separator.intercalate (symbols.map GrammarSymbol.text)

end ShiftReduce
