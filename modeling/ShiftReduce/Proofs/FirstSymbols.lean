/-
  ShiftReduce.Proofs.FirstSymbols
  ────────────────────────────────
  **WHAT CAN COME FIRST IN WHAT A SYMBOL DERIVES.**

  Left corners are collected by looking at first symbols of rules only, and the
  first terminals of a symbol are picked out of its left corners.  Since no rule
  is empty, that is all there is to know about the beginnings of derivations.

  Main statement: `corners_of_derivations`.
-/
import ShiftReduce.Proofs.Grammar.Derivation
import ShiftReduce.Proofs.Grammar.Traversal
import ShiftReduce.Symbol.Named

namespace ShiftReduce

open Relation

variable {S : Type} [GrammarSymbol S]

namespace RuleSet

variable {rules : RuleSet S} {symbol corner : S}

/-- Nothing can be put in the place of a terminal if rules are for non-terminals only. -/
theorem eq_of_reflTransGen_opens
    (nonTerminal : ∀ rule ∈ rules.toList, GrammarSymbol.isTerminal rule.lhs = false)
    (terminal : GrammarSymbol.isTerminal symbol = true)
    (path : ReflTransGen (Opens rules.toList) symbol corner) : corner = symbol := by
  rcases ReflTransGen.cases_head path with same | ⟨_, ⟨rule, mem, hlhs, _⟩, _⟩
  · exact same.symm
  · rw [← hlhs, nonTerminal rule mem] at terminal
    cases terminal

variable [DecidableEq S]

/-- With rules for non-terminals only, the first terminals of a symbol are the
terminals that openings lead to, if any openings are needed. -/
theorem mem_first_iff
    (nonTerminal : ∀ rule ∈ rules.toList, GrammarSymbol.isTerminal rule.lhs = false) :
    corner ∈ rules.first symbol ↔
      GrammarSymbol.isTerminal corner = true ∧ ReflTransGen (Opens rules.toList) symbol corner := by
  cases kind : GrammarSymbol.isTerminal symbol with
  | true =>
    rw [mem_first_of_isTerminal kind]
    constructor
    · rintro rfl
      exact ⟨kind, .refl⟩
    · intro h
      exact eq_of_reflTransGen_opens nonTerminal kind h.2
  | false =>
    rw [mem_first_of_not_isTerminal kind]
    constructor
    · intro h
      exact ⟨h.2, h.1.to_reflTransGen⟩
    · intro h
      obtain ⟨terminal, path⟩ := h
      rcases reflTransGen_iff_eq_or_transGen.1 path with rfl | path
      · -- The symbol itself is not a terminal.
        rw [kind] at terminal
        cases terminal
      · exact ⟨path, terminal⟩

end RuleSet

variable [DecidableEq S]

/-- The traversal that collects the left corners of a symbol ends.  The left
corners are the symbols that come first after one step or more at the left end of
what the symbol derives, so the symbol is one of them if and only if the rules are
left-recursive on it.  With rules for non-terminals only, its first terminals are
the terminals that come first in anything that it derives. -/
theorem corners_of_derivations (rules : RuleSet S) (symbol : S) :
    (∀ fuel, rules.size + 2 ≤ fuel →
      Traversal.run? rules fuel (.ofSymbol symbol) = some (rules.leftCorners symbol)) ∧
    (∀ corner, corner ∈ rules.leftCorners symbol ↔
      ∃ rest, TransGen (ExpandsFirst rules.toList) [symbol] (corner :: rest)) ∧
    (symbol ∈ rules.leftCorners symbol ↔ LeftRecursive rules.toList symbol) ∧
    ((∀ rule ∈ rules.toList, GrammarSymbol.isTerminal rule.lhs = false) →
      ∀ terminal, terminal ∈ rules.first symbol ↔
        GrammarSymbol.isTerminal terminal = true ∧
          ∃ rest, ReflTransGen (Expands rules.toList) [symbol] (terminal :: rest)) := by
  have nonempty := rules.rhs_ne_nil
  refine ⟨?_, ?_, ?_, ?_⟩
  · intro fuel enough
    exact Traversal.run?_ofSymbol enough symbol
  · intro corner
    rw [RuleSet.mem_leftCorners, transGen_expandsFirst_iff nonempty]
  · rw [RuleSet.mem_leftCorners, LeftRecursive, transGen_expands_iff nonempty]
  · intro nonTerminal terminal
    rw [RuleSet.mem_first_iff nonTerminal, reflTransGen_expands_iff nonempty]

/-- The rules `E => T`, `E => ( E )`, `T => n`, `T => + T` and `T => T + n`. -/
def termRules : RuleSet Symbol where
  toList :=
    [⟨0, .nonTerminal "E", [.nonTerminal "T"]⟩,
      ⟨1, .nonTerminal "E", [.terminal "(", .nonTerminal "E", .terminal ")"]⟩,
      ⟨2, .nonTerminal "T", [.terminal "n"]⟩,
      ⟨3, .nonTerminal "T", [.terminal "+", .nonTerminal "T"]⟩,
      ⟨4, .nonTerminal "T", [.nonTerminal "T", .terminal "+", .terminal "n"]⟩]
  ne_nil := by decide
  rhs_ne_nil := by decide
  ascending := by decide

/-- They are left-recursive on `T` and not on `E`, and what `E` derives begins
with a bracket, a sign or a number only. -/
theorem corners_of_derivations_term :
    LeftRecursive termRules.toList (.nonTerminal "T") ∧
    ¬ LeftRecursive termRules.toList (.nonTerminal "E") ∧
    Traversal.run? termRules 7 (.ofSymbol (.nonTerminal "E")) =
      some (termRules.leftCorners (.nonTerminal "E")) ∧
    (∃ rest, ReflTransGen (Expands termRules.toList) [.nonTerminal "E"] (.terminal "+" :: rest)) ∧
    ¬ ∃ rest, ReflTransGen (Expands termRules.toList) [.nonTerminal "E"] (.terminal ")" :: rest) := by
  have nonTerminal : ∀ rule ∈ termRules.toList, GrammarSymbol.isTerminal rule.lhs = false := by
    decide +kernel
  obtain ⟨_, _, ofT, _⟩ := corners_of_derivations termRules (.nonTerminal "T")
  obtain ⟨ends, _, ofE, first⟩ := corners_of_derivations termRules (.nonTerminal "E")
  refine ⟨ofT.1 (by decide +kernel), fun h => absurd (ofE.2 h) (by decide +kernel),
    ends 7 (by decide +kernel), ?_, ?_⟩
  · exact ((first nonTerminal (.terminal "+")).1 (by decide +kernel)).2
  · intro derives
    have mem := (first nonTerminal (.terminal ")")).2 ⟨rfl, derives⟩
    exact absurd mem (by decide +kernel)

end ShiftReduce
