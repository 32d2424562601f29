/-
  ShiftReduce.Grammar
  ────────────────────────────────
  **GRAMMARS WRITTEN WITH NAMES.**

  A grammar lists its symbols and, in rules made of names, what they derive.
  A name stands for the first symbol that has it, and the rules
  are numbered from zero in the order in which they are listed.
-/
import ShiftReduce.DecisionTable
import ShiftReduce.Symbol.Named

namespace ShiftReduce

/-- A rule written with names. -/
structure NamedRule where
  lhs : String
  rhs : List String
  deriving DecidableEq

/-- Symbols, and rules that mention them by name. -/
structure Grammar where
  symbols : List Symbol
  rules : List NamedRule
  deriving DecidableEq

namespace Grammar

/-- The first symbol with the given name. -/
def symbol? (grammar : Grammar) (name : String) : Option Symbol :=
  grammar.symbols.find? (·.isNamed name)

/-- The symbol with the given name, or the refusal of an unknown name. -/
def resolve (grammar : Grammar) (name : String) : Except GrammarError Symbol :=
  match grammar.symbol? name with
  | some symbol => .ok symbol
  | none => .error (.unknownSymbol name)

/-- A rule with its names resolved, the left-hand side first. -/
def resolveRule (grammar : Grammar) (id : Nat) (rule : NamedRule) : Except GrammarError (Rule Symbol) := do
  let lhs ← grammar.resolve rule.lhs
  let rhs ← rule.rhs.mapM grammar.resolve
  pure { id, lhs, rhs }

/-- The rules with their names resolved; the first unknown name is refused. -/
def resolvedRules (grammar : Grammar) : Except GrammarError (List (Rule Symbol)) :=
  grammar.rules.zipIdx.mapM fun entry => grammar.resolveRule entry.2 entry.1

/-- The decision table of the grammar. -/
def table (grammar : Grammar) : Except GrammarError (DecisionTable Symbol) := do
  DecisionTable.build (← grammar.resolvedRules)

end Grammar

end ShiftReduce
