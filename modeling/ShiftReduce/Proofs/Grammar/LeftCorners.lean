/-
  ShiftReduce.Proofs.Grammar.LeftCorners
  ────────────────────────────────
  **LEFT CORNERS ARE WHAT THE RULES OPEN WITH.**

  A rule opens its left-hand side with the first symbol of its right-hand side.
  The rounds in which left corners are collected use every rule once; that is
  enough, because a way from a symbol to a corner can be shortened so that it
  does not come back to a symbol of an earlier round.

  Main statements: `mem_leftCorners` (the left corners of a symbol are the
  symbols that one or more openings lead to), and `mem_first_of_isTerminal` and
  `mem_first_of_not_isTerminal` for the first terminals.
-/
import Mathlib.Logic.Relation
import ShiftReduce.RuleSet.Corners

namespace ShiftReduce

open Relation

variable {S : Type}

/-! ## §1. Openings. -/

/-- Some rule lets `corner` come first where `symbol` stands. -/
def Opens (rules : List (Rule S)) (symbol corner : S) : Prop :=
  ∃ rule ∈ rules, rule.lhs = symbol ∧ rule.rhs.head? = some corner

theorem Opens.mono {rules others : List (Rule S)} (h : rules ⊆ others) {symbol corner : S}
    (opens : Opens rules symbol corner) : Opens others symbol corner := by
  obtain ⟨rule, mem, hlhs, hhead⟩ := opens
  exact ⟨rule, h mem, hlhs, hhead⟩

/-! ## §2. The rounds. -/

section
variable [DecidableEq S]

/-- The rules that a round uses. -/
def firing (waiting : List (Rule S)) (frontier : List S) : List (Rule S) :=
  waiting.filter fun rule => decide (rule.lhs ∈ frontier)

/-- The rules that a round leaves for the next ones. -/
def remaining (waiting : List (Rule S)) (frontier : List S) : List (Rule S) :=
  waiting.filter fun rule => !decide (rule.lhs ∈ frontier)

/-- The symbols that a round finds. -/
def heads (waiting : List (Rule S)) (frontier : List S) : List S :=
  (firing waiting frontier).filterMap fun rule => rule.rhs.head?

theorem mem_heads {waiting : List (Rule S)} {frontier : List S} {corner : S} :
    corner ∈ heads waiting frontier ↔ ∃ symbol ∈ frontier, Opens waiting symbol corner := by
  simp only [heads, firing, List.mem_filterMap, List.mem_filter, decide_eq_true_eq]
  constructor
  · intro h
    obtain ⟨rule, ⟨mem, hlhs⟩, hhead⟩ := h
    exact ⟨rule.lhs, hlhs, rule, mem, rfl, hhead⟩
  · intro h
    obtain ⟨symbol, hsymbol, rule, mem, rfl, hhead⟩ := h
    exact ⟨rule, ⟨mem, hsymbol⟩, hhead⟩

theorem length_remaining_add_length_firing (waiting : List (Rule S)) (frontier : List S) :
    (remaining waiting frontier).length + (firing waiting frontier).length = waiting.length := by
  induction waiting with
  | nil => rfl
  | cons rule rest ih =>
    simp only [remaining, firing] at ih ⊢
    by_cases h : rule.lhs ∈ frontier
    · simp only [List.filter_cons, h, decide_true, Bool.not_true, Bool.false_eq_true, if_false,
        if_true, List.length_cons]
      omega
    · simp only [List.filter_cons, h, decide_false, Bool.not_false, Bool.false_eq_true, if_false,
        if_true, List.length_cons]
      omega

theorem spreadCorners_succ (rounds : Nat) (waiting : List (Rule S)) (frontier : List S) :
    spreadCorners (rounds + 1) waiting frontier =
      if (firing waiting frontier).isEmpty then []
      else heads waiting frontier ++
        spreadCorners rounds (remaining waiting frontier) (heads waiting frontier) := rfl

/-- What is found is led to by openings. -/
theorem transGen_of_mem_spreadCorners {rounds : Nat} {waiting : List (Rule S)} {frontier : List S}
    {corner : S} (h : corner ∈ spreadCorners rounds waiting frontier) :
    ∃ symbol ∈ frontier, TransGen (Opens waiting) symbol corner := by
  induction rounds generalizing waiting frontier with
  | zero => exact absurd h List.not_mem_nil
  | succ rounds ih =>
    rw [spreadCorners_succ] at h
    split at h
    · exact absurd h List.not_mem_nil
    · rcases List.mem_append.1 h with h | h
      · obtain ⟨symbol, hsymbol, opens⟩ := mem_heads.1 h
        exact ⟨symbol, hsymbol, .single opens⟩
      · obtain ⟨middle, hmiddle, path⟩ := ih h
        obtain ⟨symbol, hsymbol, opens⟩ := mem_heads.1 hmiddle
        have path' : TransGen (Opens waiting) middle corner :=
          TransGen.mono (fun _ _ => Opens.mono List.filter_sublist.subset) _ _ path
        exact ⟨symbol, hsymbol, .head opens path'⟩

/-- A way out of the frontier ends in a head of this round, or goes on from one
by the rules that remain: it is cut at the last symbol of the frontier on it. -/
theorem mem_heads_or_transGen_remaining {waiting : List (Rule S)} {frontier : List S}
    {symbol corner : S} (hsymbol : symbol ∈ frontier) (path : TransGen (Opens waiting) symbol corner) :
    corner ∈ heads waiting frontier ∨
      ∃ head ∈ heads waiting frontier, TransGen (Opens (remaining waiting frontier)) head corner := by
  induction path with
  | single opens => exact .inl (mem_heads.2 ⟨symbol, hsymbol, opens⟩)
  | @tail middle corner _ opens ih =>
    by_cases hmiddle : middle ∈ frontier
    · exact .inl (mem_heads.2 ⟨middle, hmiddle, opens⟩)
    · obtain ⟨rule, mem, hlhs, hhead⟩ := opens
      -- No rule of `middle` fires in this round, so this one remains.
      have opens' : Opens (remaining waiting frontier) middle corner :=
        ⟨rule, List.mem_filter.2 ⟨mem, by simp [hlhs, hmiddle]⟩, hlhs, hhead⟩
      rcases ih with ih | ⟨head, hhead', path⟩
      · exact .inr ⟨middle, ih, .single opens'⟩
      · exact .inr ⟨head, hhead', .tail path opens'⟩

/-- With as many rounds as rules, all that openings lead to is found. -/
theorem mem_spreadCorners_of_transGen {rounds : Nat} {waiting : List (Rule S)} {frontier : List S}
    {symbol corner : S} (enough : waiting.length ≤ rounds) (hsymbol : symbol ∈ frontier)
    (path : TransGen (Opens waiting) symbol corner) :
    corner ∈ spreadCorners rounds waiting frontier := by
  induction rounds generalizing waiting frontier symbol with
  | zero =>
    obtain ⟨_, ⟨rule, mem, _⟩, _⟩ := TransGen.head'_iff.1 path
    have : waiting = [] := List.eq_nil_of_length_eq_zero (by omega)
    rw [this] at mem
    exact absurd mem List.not_mem_nil
  | succ rounds ih =>
    have cut := mem_heads_or_transGen_remaining hsymbol path
    have fires : (firing waiting frontier).isEmpty = false := by
      obtain ⟨_, ⟨rule, mem, hlhs, _⟩, _⟩ := TransGen.head'_iff.1 path
      have : rule ∈ firing waiting frontier := List.mem_filter.2 ⟨mem, by simp [hlhs, hsymbol]⟩
      exact List.isEmpty_eq_false_iff.2 (List.ne_nil_of_mem this)
    rw [spreadCorners_succ, fires]
    refine List.mem_append.2 (cut.imp id ?_)
    intro h
    obtain ⟨head, hhead, path⟩ := h
    refine ih ?_ hhead path
    -- The round has used up a rule, so the rounds left are enough for the rest.
    have := length_remaining_add_length_firing waiting frontier
    have := List.length_pos_iff.2 (List.isEmpty_eq_false_iff.1 fires)
    omega

end

/-! ## §3. Left corners and first terminals. -/

namespace RuleSet

variable [DecidableEq S] [GrammarSymbol S]

/-- The left corners of a symbol are the symbols that one or more openings lead to. -/
theorem mem_leftCorners {rules : RuleSet S} {symbol corner : S} :
    corner ∈ rules.leftCorners symbol ↔ TransGen (Opens rules.toList) symbol corner := by
  rw [leftCorners, SymbolSet.mem_ofList]
  constructor
  · intro h
    obtain ⟨symbol', hsymbol, path⟩ := transGen_of_mem_spreadCorners h
    rw [List.mem_singleton] at hsymbol
    exact hsymbol ▸ path
  · exact mem_spreadCorners_of_transGen (Nat.le_refl _) (List.mem_singleton.2 rfl)

/-- A terminal is the only first terminal of itself. -/
theorem mem_first_of_isTerminal {rules : RuleSet S} {symbol corner : S}
    (h : GrammarSymbol.isTerminal symbol = true) : corner ∈ rules.first symbol ↔ corner = symbol := by
  rw [first, if_pos h, SymbolSet.mem_ofList, List.mem_singleton]

/-- The first terminals of any other symbol are the terminals among its left corners. -/
theorem mem_first_of_not_isTerminal {rules : RuleSet S} {symbol corner : S}
    (h : GrammarSymbol.isTerminal symbol = false) :
    corner ∈ rules.first symbol ↔
      TransGen (Opens rules.toList) symbol corner ∧ GrammarSymbol.isTerminal corner = true := by
  rw [first, if_neg (by simp [h]), SymbolSet.mem_filter, mem_leftCorners]

/-- Openings, if any are needed, lead from a symbol to its first terminals. -/
theorem reflTransGen_of_mem_first {rules : RuleSet S} {symbol corner : S}
    (h : corner ∈ rules.first symbol) : ReflTransGen (Opens rules.toList) symbol corner := by
  cases kind : GrammarSymbol.isTerminal symbol with
  | true =>
    rw [(mem_first_of_isTerminal kind).1 h]
  | false => exact ((mem_first_of_not_isTerminal kind).1 h).1.to_reflTransGen

end RuleSet

end ShiftReduce
