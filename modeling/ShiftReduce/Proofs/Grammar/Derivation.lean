/-
  ShiftReduce.Proofs.Grammar.Derivation
  ────────────────────────────────
  **WHAT RULES DERIVE, AND WHAT IT BEGINS WITH.**

  A derivation replaces one symbol of a string after the other by the
  right-hand side of a rule for it.  No right-hand side is empty, so the first
  symbol of a string goes away only by a rule that opens it with another symbol:
  what happens further to the right does not matter for what comes first.

  Main statements: `transGen_expandsFirst_iff`, `transGen_expands_iff`,
  `reflTransGen_expandsFirst_iff` and `reflTransGen_expands_iff`: a symbol derives a string
  that begins with another one if and only if openings lead from the one to the other.
-/
import ShiftReduce.Proofs.Grammar.LeftCorners

namespace ShiftReduce

open Relation

variable {S : Type}

/-! ## §1. Derivations. -/

/-- Some rule is applied to the first symbol of the string. -/
inductive ExpandsFirst (rules : List (Rule S)) : List S → List S → Prop where
  | head {rule : Rule S} (mem : rule ∈ rules) (rest : List S) :
      ExpandsFirst rules (rule.lhs :: rest) (rule.rhs ++ rest)

/-- Some rule is applied to a symbol of the string, wherever it stands. -/
inductive Expands (rules : List (Rule S)) : List S → List S → Prop where
  | head {rule : Rule S} (mem : rule ∈ rules) (rest : List S) :
      Expands rules (rule.lhs :: rest) (rule.rhs ++ rest)
  | cons {before after : List S} (symbol : S) (expands : Expands rules before after) :
      Expands rules (symbol :: before) (symbol :: after)

/-- The rules derive from the symbol, in one step or more, a string that begins
with the symbol itself. -/
def LeftRecursive (rules : List (Rule S)) (symbol : S) : Prop :=
  ∃ rest, TransGen (Expands rules) [symbol] (symbol :: rest)

variable {rules : List (Rule S)} {symbol corner : S} {string after rest : List S}

theorem ExpandsFirst.expands (h : ExpandsFirst rules string after) : Expands rules string after := by
  cases h with
  | head mem rest => exact .head mem rest

/-! ## §2. What one step does to the first symbol. -/

/-- What a rule puts in the place of its left-hand side begins with a symbol
that opens it. -/
theorem opens_of_mem (nonempty : ∀ rule ∈ rules, rule.rhs ≠ []) {rule : Rule S} (mem : rule ∈ rules) :
    ∃ first others, rule.rhs = first :: others ∧ Opens rules rule.lhs first := by
  obtain ⟨first, others, hrhs⟩ := List.exists_cons_of_ne_nil (nonempty rule mem)
  exact ⟨first, others, hrhs, rule, mem, rfl, by rw [hrhs]; rfl⟩

theorem ExpandsFirst.opens (nonempty : ∀ rule ∈ rules, rule.rhs ≠ [])
    (h : ExpandsFirst rules (symbol :: rest) after) :
    ∃ first others, after = first :: others ∧ Opens rules symbol first := by
  cases h with
  | head mem =>
    obtain ⟨first, others, hrhs, opens⟩ := opens_of_mem nonempty mem
    exact ⟨first, others ++ rest, by rw [hrhs, List.cons_append], opens⟩

/-- A step either leaves the first symbol as it is, or opens it. -/
theorem Expands.opens (nonempty : ∀ rule ∈ rules, rule.rhs ≠ [])
    (h : Expands rules (symbol :: rest) after) :
    ∃ first others, after = first :: others ∧ (first = symbol ∨ Opens rules symbol first) := by
  cases h with
  | head mem =>
    obtain ⟨first, others, hafter, opens⟩ := ExpandsFirst.opens nonempty (.head mem rest)
    exact ⟨first, others, hafter, .inr opens⟩
  | @cons _ after _ _ => exact ⟨symbol, after, rfl, .inl rfl⟩

/-- There is no other symbol to apply a rule to than the only one. -/
theorem Expands.expandsFirst (h : Expands rules [symbol] after) : ExpandsFirst rules [symbol] after := by
  cases h with
  | head mem => exact .head mem []
  | cons _ expands => cases expands

/-- A symbol that is opened by another one is replaced by it, whatever follows. -/
theorem Opens.expandsFirst (opens : Opens rules symbol corner) (rest : List S) :
    ∃ others, ExpandsFirst rules (symbol :: rest) (corner :: others) := by
  obtain ⟨rule, mem, rfl, hhead⟩ := opens
  obtain ⟨others, hrhs⟩ := List.head?_eq_some_iff.1 hhead
  refine ⟨others ++ rest, ?_⟩
  have step : ExpandsFirst rules (rule.lhs :: rest) (rule.rhs ++ rest) := .head mem rest
  rwa [hrhs, List.cons_append] at step

/-! ## §3. Whole derivations. -/

/-- Openings one after the other are a derivation at the left end. -/
theorem exists_expandsFirst_of_transGen (path : TransGen (Opens rules) symbol corner) (rest : List S) :
    ∃ others, TransGen (ExpandsFirst rules) (symbol :: rest) (corner :: others) := by
  -- By induction on the way to the corner; what stands to its right grows with every step.
  induction path with
  | single opens =>
    obtain ⟨others, step⟩ := opens.expandsFirst rest
    exact ⟨others, .single step⟩
  | tail _ opens ih =>
    obtain ⟨others, steps⟩ := ih
    obtain ⟨others', step⟩ := opens.expandsFirst others
    exact ⟨others', steps.tail step⟩

/-- Through a derivation at the left end the first symbol is opened at every step. -/
theorem transGen_opens_of_expandsFirst (nonempty : ∀ rule ∈ rules, rule.rhs ≠ [])
    (steps : TransGen (ExpandsFirst rules) (symbol :: rest) after) :
    ∃ first others, after = first :: others ∧ TransGen (Opens rules) symbol first := by
  -- No string on the way is empty, so each step has a first symbol to open.
  induction steps with
  | single step =>
    obtain ⟨first, others, hafter, opens⟩ := step.opens nonempty
    exact ⟨first, others, hafter, .single opens⟩
  | tail _ step ih =>
    obtain ⟨middle, others, rfl, path⟩ := ih
    obtain ⟨first, others', hafter, opens⟩ := step.opens nonempty
    exact ⟨first, others', hafter, path.tail opens⟩

/-- Through any derivation the first symbol is opened now and then. -/
theorem reflTransGen_opens_of_expands (nonempty : ∀ rule ∈ rules, rule.rhs ≠ [])
    (steps : ReflTransGen (Expands rules) (symbol :: rest) after) :
    ∃ first others, after = first :: others ∧ ReflTransGen (Opens rules) symbol first := by
  induction steps with
  | refl => exact ⟨symbol, rest, rfl, .refl⟩
  | tail _ step ih =>
    obtain ⟨middle, others, rfl, path⟩ := ih
    obtain ⟨first, others', hafter, same | opens⟩ := step.opens nonempty
    -- A step further to the right changes nothing here.
    · exact ⟨first, others', hafter, by rw [same]; exact path⟩
    · exact ⟨first, others', hafter, path.tail opens⟩

/-- What comes first after one step or more at the left end is what openings lead to. -/
theorem transGen_expandsFirst_iff (nonempty : ∀ rule ∈ rules, rule.rhs ≠ []) :
    (∃ rest, TransGen (ExpandsFirst rules) [symbol] (corner :: rest)) ↔
      TransGen (Opens rules) symbol corner := by
  constructor
  · intro h
    obtain ⟨rest, steps⟩ := h
    obtain ⟨first, others, same, path⟩ := transGen_opens_of_expandsFirst nonempty steps
    cases same
    exact path
  · intro path
    exact exists_expandsFirst_of_transGen path []

/-- The same after one step or more anywhere: the first of them is at the left
end, since there is nothing else. -/
theorem transGen_expands_iff (nonempty : ∀ rule ∈ rules, rule.rhs ≠ []) :
    (∃ rest, TransGen (Expands rules) [symbol] (corner :: rest)) ↔
      TransGen (Opens rules) symbol corner := by
  constructor
  · intro h
    obtain ⟨rest, steps⟩ := h
    obtain ⟨middle, step, steps⟩ := TransGen.head'_iff.1 steps
    -- There is nothing but the symbol to apply the first rule to; later ones may be anywhere.
    obtain ⟨first, others, rfl, opens⟩ := step.expandsFirst.opens nonempty
    obtain ⟨last, _, same, path⟩ := reflTransGen_opens_of_expands nonempty steps
    cases same
    exact .head' opens path
  · intro path
    obtain ⟨rest, steps⟩ := (transGen_expandsFirst_iff nonempty).2 path
    exact ⟨rest, TransGen.mono (fun _ _ => ExpandsFirst.expands) _ _ steps⟩

/-- With no step at all as well, what comes first is the symbol itself or is led
to by openings. -/
theorem reflTransGen_expandsFirst_iff (nonempty : ∀ rule ∈ rules, rule.rhs ≠ []) :
    (∃ rest, ReflTransGen (ExpandsFirst rules) [symbol] (corner :: rest)) ↔
      ReflTransGen (Opens rules) symbol corner := by
  constructor
  · intro h
    obtain ⟨rest, steps⟩ := h
    have steps := ReflTransGen.mono (fun _ _ => ExpandsFirst.expands) _ _ steps
    obtain ⟨first, others, same, path⟩ := reflTransGen_opens_of_expands nonempty steps
    cases same
    exact path
  · intro path
    rcases reflTransGen_iff_eq_or_transGen.1 path with same | path
    · exact ⟨[], by rw [same]⟩
    · obtain ⟨rest, steps⟩ := (transGen_expandsFirst_iff nonempty).2 path
      exact ⟨rest, steps.to_reflTransGen⟩

/-- The same again with steps anywhere. -/
theorem reflTransGen_expands_iff (nonempty : ∀ rule ∈ rules, rule.rhs ≠ []) :
    (∃ rest, ReflTransGen (Expands rules) [symbol] (corner :: rest)) ↔
      ReflTransGen (Opens rules) symbol corner := by
  constructor
  · intro h
    obtain ⟨rest, steps⟩ := h
    obtain ⟨first, others, same, path⟩ := reflTransGen_opens_of_expands nonempty steps
    cases same
    exact path
  · intro path
    obtain ⟨rest, steps⟩ := (reflTransGen_expandsFirst_iff nonempty).2 path
    exact ⟨rest, ReflTransGen.mono (fun _ _ => ExpandsFirst.expands) _ _ steps⟩

end ShiftReduce
