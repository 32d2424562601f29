/-
  ShiftReduce.Symbol.Named
  ────────────────────────────────
  **SYMBOLS WITH A NAME.**

  The ready-made symbol type: a terminal or a non-terminal is identified by its
  name, and there is one end-marker, named `<eos>`.  A terminal that happens to
  be called `<eos>` is another symbol.

  Main statement: the order, by name and then terminal, non-terminal,
  end-marker, is lawful (the `GrammarSymbol Symbol` instance).
-/
import ShiftReduce.Symbol
import ShiftReduce.Text.Json

namespace ShiftReduce

/-! ## §1. The symbols. -/

/-- A symbol identified by its name and by what it is. -/
inductive Symbol where
  | terminal (name : String)
  | nonTerminal (name : String)
  | endMarker
  deriving DecidableEq

namespace Symbol

/-- The name of the symbol; that of the end-marker is fixed. -/
def name : Symbol → String
  | terminal name => name
  | nonTerminal name => name
  | endMarker => "<eos>"

/-- The place of the symbol among those of the same name. -/
def rank : Symbol → Nat
  | terminal _ => 0
  | nonTerminal _ => 1
  | endMarker => 2

/-- The symbol has the given name. -/
def isNamed (symbol : Symbol) (name : String) : Bool :=
  symbol.name = name

/-! ## §2. Order and instance. -/

instance : Ord Symbol where
  compare := compareLex (compareOn name) (compareOn rank)

theorem eq_of_name_of_rank {a b : Symbol} (hn : a.name = b.name) (hr : a.rank = b.rank) : a = b := by
  cases a <;> cases b <;> simp_all [name, rank]

instance : Std.TransOrd Symbol :=
  inferInstanceAs (Std.TransCmp (compareLex (compareOn name) (compareOn rank)))

instance : Std.LawfulEqOrd Symbol where
  compare_self := Std.ReflCmp.compare_self
  eq_of_compare h := by
    obtain ⟨hn, hr⟩ := Ordering.then_eq_eq.1 h
    exact eq_of_name_of_rank (Std.LawfulEqOrd.eq_of_compare hn) (Std.LawfulEqOrd.eq_of_compare hr)

instance : GrammarSymbol Symbol where
  isTerminal
    | nonTerminal _ => false
    | _ => true
  isEndMarker
    | endMarker => true
    | _ => false
  text := name

/-- Symbols of one name are not told apart by their hash. -/
instance : Hashable Symbol where
  hash symbol := hash symbol.name

/-! ## §3. JSON. -/

/-- What the symbol is, in a word. -/
def kindText : Symbol → String
  | terminal _ => "Terminal"
  | nonTerminal _ => "NonTerminal"
  | endMarker => "EOS"

/-- A symbol is written with its name and with what it is. -/
def toJson (symbol : Symbol) : Json :=
  .object [("id", .string symbol.name), ("kind", .string symbol.kindText)]

end Symbol

end ShiftReduce
