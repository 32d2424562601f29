/-
  ShiftReduce.Proofs.Grammar.Adjacency
  ────────────────────────────────
  **WHAT MAY SIT ABOVE WHAT ON THE STACK.**

  The table computes its adjacency relation from neighbours in rules and from
  left corners.  Here it is read off the rules without any computation.

  Main statements: `canFollow_none_iff` and `canFollow_some_iff`, and
  `Admissible.expand`: a stack stays free of misplaced symbols when a left-hand
  side on top of it is replaced by the right-hand side.
-/
import ShiftReduce.DecisionTable
import ShiftReduce.Proofs.Grammar.LeftCorners

namespace ShiftReduce

open Relation

variable {S : Type}

/-! ## §1. Neighbours in rules. -/

/-- Some rule has `next` right after `symbol`. -/
def Adjacent (rules : List (Rule S)) (symbol next : S) : Prop :=
  ∃ rule ∈ rules, ∃ position : Nat,
    rule.rhs[position]? = some symbol ∧ rule.rhs[position + 1]? = some next

/-- A list zipped with its tail pairs neighbours. -/
theorem mem_zip_tail {symbols : List S} {a b : S} :
    (a, b) ∈ symbols.zip symbols.tail ↔
      ∃ position : Nat, symbols[position]? = some a ∧ symbols[position + 1]? = some b := by
  simp only [List.mem_iff_getElem?, List.getElem?_zip_eq_some, List.getElem?_tail]

variable [DecidableEq S]

theorem RuleSet.mem_nextSymbols {rules : RuleSet S} {symbol next : S} :
    next ∈ rules.nextSymbols symbol ↔ Adjacent rules.toList symbol next := by
  simp only [nextSymbols, List.mem_flatMap, List.mem_filterMap]
  constructor
  · intro h
    obtain ⟨rule, hrule, ⟨a, b⟩, hpair, hnext⟩ := h
    split at hnext
    · next heq =>
      cases hnext
      cases heq
      exact ⟨rule, hrule, mem_zip_tail.1 hpair⟩
    · cases hnext
  · intro h
    obtain ⟨rule, hrule, hposition⟩ := h
    exact ⟨rule, hrule, (symbol, next), mem_zip_tail.2 hposition, by simp⟩

/-! ## §2. The adjacency relation of a table. -/

variable [GrammarSymbol S]

namespace DecisionTable

/-- At the bottom stands what the start symbol can begin with. -/
theorem canFollow_none_iff {table : DecisionTable S} {top : S} :
    table.canFollow none top = true ↔
      ReflTransGen (Opens table.rules.toList) table.start top := by
  rw [canFollow_iff, followers_eq, reflTransGen_iff_eq_or_transGen]
  simp only [RuleSet.bottoms, SymbolSet.mem_insert, RuleSet.mem_leftCorners]
  rfl

/-- Right above a symbol stands what one of its successors in a rule can begin with. -/
theorem canFollow_some_iff {table : DecisionTable S} {below top : S} :
    table.canFollow (some below) top = true ↔
      ∃ next, Adjacent table.rules.toList below next ∧
        ReflTransGen (Opens table.rules.toList) next top := by
  rw [canFollow_iff, followers_eq]
  simp only [RuleSet.successors, SymbolSet.mem_ofList, List.mem_flatMap, RuleSet.mem_nextSymbols,
    List.mem_cons, ← SymbolSet.mem_def, RuleSet.mem_leftCorners, reflTransGen_iff_eq_or_transGen]

/-- What may sit somewhere can be replaced by what it begins with. -/
theorem canFollow_of_opens {table : DecisionTable S} {below : Option S} {top corner : S}
    (h : table.canFollow below top = true) (opens : Opens table.rules.toList top corner) :
    table.canFollow below corner = true := by
  cases below with
  | none => exact canFollow_none_iff.2 (.tail (canFollow_none_iff.1 h) opens)
  | some symbol =>
    obtain ⟨next, adjacent, path⟩ := canFollow_some_iff.1 h
    exact canFollow_some_iff.2 ⟨next, adjacent, .tail path opens⟩

theorem canFollow_of_adjacent {table : DecisionTable S} {below top : S}
    (h : Adjacent table.rules.toList below top) : table.canFollow (some below) top = true :=
  canFollow_some_iff.2 ⟨top, h, .refl⟩

/-! ## §3. Stacks without a misplaced symbol. -/

/-- Each of the symbols, top first, may sit right above the one below it, and
the last one at the bottom. -/
def Admissible (table : DecisionTable S) : List S → Prop
  | [] => True
  | top :: rest => table.canFollow rest.head? top = true ∧ table.Admissible rest

/-- Where a left-hand side may sit, its right-hand side may: the first symbol
because it opens the left-hand side, the others because of their neighbours. -/
theorem Admissible.expand {table : DecisionTable S} {rule : Rule S} {rest : List S}
    (hrule : rule ∈ table.rules.toList) (h : table.Admissible (rule.lhs :: rest)) :
    table.Admissible (rule.rhs.reverse ++ rest) := by
  obtain ⟨follows, below⟩ := h
  have grown : ∀ length ≤ rule.rhs.length, table.Admissible ((rule.rhs.take length).reverse ++ rest) := by
    intro length within
    induction length with
    | zero => exact below
    | succ length ih =>
      have here : rule.rhs[length]? = some rule.rhs[length] := List.getElem?_eq_getElem within
      rw [List.take_succ_eq_append_getElem within, List.reverse_append]
      refine ⟨?_, ih (Nat.le_of_succ_le within)⟩
      by_cases first : length = 0
      · subst first
        refine canFollow_of_opens follows ⟨rule, hrule, rfl, ?_⟩
        rw [List.head?_eq_getElem?, here]
      · -- The symbol before it in the rule is right below it.
        obtain ⟨before, rfl⟩ : ∃ n, length = n + 1 := ⟨length - 1, by omega⟩
        have neighbour : rule.rhs[before]? = some rule.rhs[before] := List.getElem?_eq_getElem (by omega)
        rw [List.take_succ_eq_append_getElem (by omega), List.reverse_append]
        exact canFollow_of_adjacent ⟨rule, hrule, before, neighbour, here⟩
  have whole := grown rule.rhs.length (Nat.le_refl _)
  rw [List.take_length] at whole
  exact whole

theorem admissible_start (table : DecisionTable S) : table.Admissible [table.start] :=
  ⟨canFollow_none_iff.2 .refl, trivial⟩

end DecisionTable

end ShiftReduce
