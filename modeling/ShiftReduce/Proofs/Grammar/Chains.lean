/-
  ShiftReduce.Proofs.Grammar.Chains
  ────────────────────────────────
  **CHAINS OF ONE-SYMBOL RULES.**

  A rule with a single symbol on its right-hand side replaces one tree on the
  stack by another.  If no chain of such rules leads from a symbol back to
  itself, then every symbol has a height, and each of these reductions makes
  the top of the stack lower.

  Main statement: `height_lt`.
-/
import Mathlib.Logic.Relation
import ShiftReduce.RuleSet

namespace ShiftReduce

open Relation

variable {S : Type}

/-! ## §1. Links and chains. -/

/-- Some rule derives from `symbol` nothing but `other`. -/
def Link (rules : List (Rule S)) (symbol other : S) : Prop :=
  ∃ rule ∈ rules, rule.lhs = symbol ∧ rule.rhs = [other]

/-- No symbol leads back to itself through one-symbol rules. -/
def Acyclic (rules : List (Rule S)) : Prop :=
  ∀ symbol, ¬TransGen (Link rules) symbol symbol

theorem Acyclic.mono {rules others : List (Rule S)} (h : rules ⊆ others) (acyclic : Acyclic others) :
    Acyclic rules := by
  intro symbol cycle
  refine acyclic symbol (TransGen.mono ?_ _ _ cycle)
  intro a b link
  obtain ⟨rule, hrule, hlhs, hrhs⟩ := link
  exact ⟨rule, h hrule, hlhs, hrhs⟩

/-! ## §2. Heights. -/

/-- The rule is one by which a chain to `symbol` can go on from the symbol above it. -/
def Rising (rules : List (Rule S)) (symbol : S) (rule : Rule S) : Prop :=
  ∃ other, rule.rhs = [other] ∧ ReflTransGen (Link rules) other symbol

open Classical in
/-- The number of rules by which chains can be made longer upwards from `symbol`. -/
noncomputable def height (rules : List (Rule S)) (symbol : S) : Nat :=
  (rules.filter fun rule => decide (Rising rules symbol rule)).length

theorem height_le (rules : List (Rule S)) (symbol : S) : height rules symbol ≤ rules.length :=
  List.length_filter_le _ _

/-- A one-symbol rule leads from a symbol to a higher one. -/
theorem height_lt {rules : List (Rule S)} {symbol other : S} (acyclic : Acyclic rules)
    (link : Link rules symbol other) : height rules symbol < height rules other := by
  classical
  -- What leads up to `symbol` leads on to `other`, by the link.
  have rising : ∀ rule, Rising rules symbol rule → Rising rules other rule := by
    intro rule h
    obtain ⟨first, hrhs, chain⟩ := h
    exact ⟨first, hrhs, .tail chain link⟩
  have within : rules.filter (fun rule => decide (Rising rules symbol rule)) =
      (rules.filter fun rule => decide (Rising rules other rule)).filter
        fun rule => decide (Rising rules symbol rule) := by
    rw [List.filter_filter]
    refine List.filter_congr fun rule _ => ?_
    by_cases h : Rising rules symbol rule
    · simp [h, rising rule h]
    · simp [h]
  -- The rule of the link itself leads up to `other`, but not to `symbol`.
  obtain ⟨rule, hrule, hlhs, hrhs⟩ := link
  have counted : rule ∈ rules.filter fun rule => decide (Rising rules other rule) :=
    List.mem_filter.2 ⟨hrule, decide_eq_true ⟨other, hrhs, .refl⟩⟩
  have missed : ¬Rising rules symbol rule := by
    intro h
    obtain ⟨first, hfirst, chain⟩ := h
    rw [hrhs, List.cons.injEq] at hfirst
    rw [← hfirst.1] at chain
    exact acyclic symbol (TransGen.head' ⟨rule, hrule, hlhs, hrhs⟩ chain)
  unfold height
  rw [within]
  exact List.length_filter_lt_length_iff_exists.2 ⟨rule, counted, by simpa using missed⟩

end ShiftReduce
