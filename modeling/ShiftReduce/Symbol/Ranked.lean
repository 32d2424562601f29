/-
  ShiftReduce.Symbol.Ranked
  ────────────────────────────────
  **SYMBOLS IN AN ORDER OF CHOICE.**

  A symbol type for those who want another order than the alphabetical one:
  every symbol carries its rank.  Being terminal and being an end-marker are
  independent of each other here, so all four combinations exist.

  Main statement: the order, by rank, then by role, then by name, is lawful
  (the `GrammarSymbol RankedSymbol` instance).
-/
import ShiftReduce.Symbol

namespace ShiftReduce

/-! ## §1. The symbols. -/

/-- Whether a symbol is terminal and whether it is an end-marker. -/
inductive SymbolRole where
  | terminalEndMarker
  | nonTerminal
  | terminal
  | nonTerminalEndMarker
  deriving DecidableEq, Hashable

/-- The place of a role in the order. -/
def SymbolRole.rank : SymbolRole → Nat
  | terminalEndMarker => 0
  | nonTerminal => 1
  | terminal => 2
  | nonTerminalEndMarker => 3

theorem SymbolRole.eq_of_rank {a b : SymbolRole} (h : a.rank = b.rank) : a = b := by
  cases a <;> cases b <;> simp_all [rank]

/-- A symbol with a rank, a role and a name. -/
structure RankedSymbol where
  rank : Nat
  role : SymbolRole
  name : String
  deriving DecidableEq, Hashable

namespace RankedSymbol

/-! ## §2. Order and instance. -/

instance : Ord RankedSymbol where
  compare := compareLex (compareOn rank) (compareLex (compareOn (·.role.rank)) (compareOn name))

instance : Std.TransOrd RankedSymbol :=
  inferInstanceAs (Std.TransCmp
    (compareLex (compareOn rank) (compareLex (compareOn (·.role.rank)) (compareOn name))))

instance : Std.LawfulEqOrd RankedSymbol where
  compare_self := Std.ReflCmp.compare_self
  eq_of_compare {a b} h := by
    obtain ⟨hrank, h⟩ := Ordering.then_eq_eq.1 h
    obtain ⟨hrole, hname⟩ := Ordering.then_eq_eq.1 h
    cases a
    cases b
    congr
    · exact Std.LawfulEqOrd.eq_of_compare hrank
    · exact SymbolRole.eq_of_rank (Std.LawfulEqOrd.eq_of_compare hrole)
    · exact Std.LawfulEqOrd.eq_of_compare hname

instance : GrammarSymbol RankedSymbol where
  isTerminal symbol := symbol.role = .terminal || symbol.role = .terminalEndMarker
  isEndMarker symbol := symbol.role = .terminalEndMarker || symbol.role = .nonTerminalEndMarker
  text := name

end RankedSymbol

end ShiftReduce
