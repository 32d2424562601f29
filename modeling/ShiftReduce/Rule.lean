/-
  ShiftReduce.Rule
  ────────────────────────────────
  **GRAMMAR RULES AND WHAT CAN BE WRONG WITH A LIST OF THEM.**

  A rule lets its right-hand side stand for its left-hand side and carries a
  number, which orders the rules of a grammar.
-/
import ShiftReduce.Symbol

namespace ShiftReduce

/-! ## §1. Rules. -/

/-- A numbered rule by which `lhs` derives the symbols of `rhs`. -/
structure Rule (S : Type) where
  id : Nat
  lhs : S
  rhs : List S
  deriving DecidableEq

namespace Rule

variable {S : Type}

/-- The rule as it is shown: number, left-hand side, right-hand side. -/
def text [GrammarSymbol S] (rule : Rule S) : String :=
  "(" ++ toString rule.id ++ ") " ++ GrammarSymbol.text rule.lhs ++ " => " ++ showSymbols " " rule.rhs

/-- The symbol occurs on the right-hand side. -/
def mentions [DecidableEq S] (rule : Rule S) (symbol : S) : Bool :=
  decide (symbol ∈ rule.rhs)

/-- The right-hand side ends with an end-marker. -/
def isTerminating [GrammarSymbol S] (rule : Rule S) : Bool :=
  rule.rhs.getLast?.any GrammarSymbol.isEndMarker

/-- Every symbol of the rule, the left-hand side first. -/
def symbols (rule : Rule S) : List S :=
  rule.lhs :: rule.rhs

/-- The hash of a rule leaves its number out. -/
instance [Hashable S] : Hashable (Rule S) where
  hash rule := mixHash (hash rule.lhs) (hash rule.rhs)

end Rule

/-! ## §2. Refused grammars. -/

/-- The reasons for which a grammar is refused. -/
inductive GrammarError where
  /-- There is no rule. -/
  | emptyGrammar
  /-- The rule with this number has an empty right-hand side. -/
  | emptyRule (id : Nat)
  /-- Several rules have this number. -/
  | duplicatedRule (id : Nat)
  /-- A rule mentions a name that no symbol has. -/
  | unknownSymbol (name : String)
  deriving DecidableEq

/-- The wording of each reason. -/
def GrammarError.message : GrammarError → String
  | emptyGrammar => "the grammar has no rule"
  | emptyRule id => "rule #" ++ toString id ++ " has no right-hand side symbol"
  | duplicatedRule id => "a rule with the same identifier already exists #" ++ toString id
  | unknownSymbol name => "unknown symbol " ++ name

end ShiftReduce
