/-
  ShiftReduce.Proofs.StartSymbol
  ────────────────────────────────
  **WHEN AN ACCEPTED TREE IS NOT OF THE START SYMBOL.**

  An accepting item is recognised by the end-marker that its rule ends with;
  what the rule derives is not compared with the start symbol.  The check of
  adjacency only asks that it may sit at the bottom of the stack, as every left
  corner of the start symbol may.  A tree for such a left corner is therefore
  accepted in place of one for the start symbol: it strays.

  Main statement: `root_of_accepted` (the roots of accepted trees are of the
  start symbol but for those that stray, and trees that stray are accepted).
-/
import ShiftReduce.Proofs.Branch.Completeness
import ShiftReduce.Proofs.Search.Verdict
import ShiftReduce.Proofs.Soundness

namespace ShiftReduce

open Relation

variable {S : Type} [DecidableEq S] [GrammarSymbol S]

/-! ## §1. Trees that stray. -/

/-- The root is made by a rule that ends with an end-marker, for a left corner of
the start symbol other than the start symbol itself; below it there are no
rules that end with an end-marker. -/
structure Strays (table : DecisionTable S) (tree : ParseTree S) : Prop where
  root : ∃ rule ∈ table.rules.toList, rule.isTerminating = true ∧ ParseTree.Applies rule tree ∧
    rule.lhs ≠ table.start ∧ ReflTransGen (Opens table.rules.toList) table.start rule.lhs
  built : ∀ child ∈ tree.children, ParseTree.BuiltBy table.rules.inner child

/-- Some search of the stream, after any number of results, hands out this one. -/
def HandsOut (table : DecisionTable S) (stream : TokenStream S) (result : ParseResult S) : Prop :=
  ∃ (options : SearchOptions) (search after : Search S (Move S)) (fuel : Nat),
    Search.Reachable (Problem.machine ⟨table, stream⟩) options search ∧
      Search.next? (Problem.machine ⟨table, stream⟩) options fuel search = some (some result, after)

variable {table : DecisionTable S} {stream : TokenStream S} {tree : ParseTree S}

theorem accepted_of_handsOut {result : ParseResult S} (h : HandsOut table stream result)
    (accepted : result.error = none) :
    ∃ tree, result.forest = [tree] ∧ Problem.Accepted ⟨table, stream⟩ tree := by
  obtain ⟨options, search, after, fuel, reachable, handed⟩ := h
  have lawful := Problem.machine_lawful (⟨table, stream⟩ : Problem S)
  exact Problem.accepted_of_endsIn (Search.endsIn_of_next? lawful reachable handed) accepted

/-- A tree that can be accepted is of the start symbol or strays. -/
theorem kind_eq_start_or_strays (h : Problem.Accepted ⟨table, stream⟩ tree) :
    tree.kind = table.start ∨ Strays table tree ∧ tree.yield = stream.lexemes := by
  rcases h with byRule | asStart
  · obtain ⟨rule, hrule, terminating, applies, follows⟩ := byRule.root
    by_cases start : rule.lhs = table.start
    · refine .inl ?_
      rw [applies.1]
      exact start
    · have corner := DecisionTable.canFollow_none_iff.1 follows
      exact .inr ⟨⟨⟨rule, hrule, terminating, applies, start, corner⟩, byRule.built⟩, byRule.yield⟩
  · exact .inl asStart.kind

theorem Strays.kind_ne_start (h : Strays table tree) : tree.kind ≠ table.start := by
  obtain ⟨rule, _, _, applies, other, _⟩ := h.root
  rw [applies.1]
  exact other

/-- Over tokens, a tree that strays is handed out by the search that is allowed
just as many moves as the tree takes. -/
theorem handsOut_of_strays (typed : Problem.Typed ⟨table, stream⟩) (h : Strays table tree)
    (yield : tree.yield = stream.lexemes) : HandsOut table stream ⟨[tree], none⟩ := by
  obtain ⟨rule, hrule, terminating, applies, _, corner⟩ := h.root
  have accepted : Problem.AcceptedByRule ⟨table, stream⟩ tree :=
    ⟨⟨rule, hrule, terminating, applies, DecisionTable.canFollow_none_iff.2 corner⟩, h.built, yield⟩
  have within : ∀ bound, some (tree.size - 1) = some bound → tree.size - 1 ≤ bound := by
    intro bound h
    cases h
    exact Nat.le_refl _
  have ends := Problem.endsIn_of_acceptedByRule typed accepted within
  -- The bound makes the search finite, whatever the rules are.
  have lawful := Problem.machine_lawful (⟨table, stream⟩ : Problem S)
  have finite := Machine.exists_enumerate_of_bound lawful (tree.size - 1)
  obtain ⟨results, final, enough, collected, _, members⟩ :=
    Search.exists_collect lawful { maxSteps := some (tree.size - 1) } finite
  have mem := (members _).2 ends
  rw [Search.reported_eq_self rfl] at collected
  obtain ⟨fuel, before, after, reachable, handed⟩ :=
    Search.exists_next?_of_mem .initial (collected enough (Nat.le_refl _)) mem
  exact ⟨_, before, after, fuel, reachable, handed⟩

/-! ## §2. The roots of accepted trees. -/

/-- Whatever the rules, the stream and the options, an accepted tree is of the
start symbol or strays.  If left-hand sides are no terminals and tokens are,
the start symbol is guaranteed for a stream if and only if no tree over it strays. -/
theorem root_of_accepted {rules : List (Rule S)} (built : DecisionTable.build rules = .ok table)
    (stream : TokenStream S) :
    (∀ result, HandsOut table stream result → result.error = none →
      ∃ tree, result.forest = [tree] ∧
        (tree.kind = table.start ∨ Strays table tree ∧ tree.yield = stream.lexemes)) ∧
    ((∀ rule ∈ rules, GrammarSymbol.isTerminal rule.lhs = false) →
      (∀ lexeme ∈ stream.lexemes, GrammarSymbol.isTerminal lexeme.kind = true) →
      ((∀ tree, HandsOut table stream ⟨[tree], none⟩ → tree.kind = table.start) ↔
        ∀ tree, tree.yield = stream.lexemes → ¬Strays table tree)) := by
  constructor
  · intro result handed accepted
    obtain ⟨tree, forest, htree⟩ := accepted_of_handsOut handed accepted
    exact ⟨tree, forest, kind_eq_start_or_strays htree⟩
  · intro lhs tokens
    have typed : Problem.Typed ⟨table, stream⟩ :=
      ⟨fun rule hrule => lhs rule ((DecisionTable.mem_rules_of_build built).1 hrule), tokens⟩
    constructor
    · intro guaranteed tree yield strays
      exact strays.kind_ne_start (guaranteed tree (handsOut_of_strays typed strays yield))
    · intro none tree handed
      obtain ⟨other, forest, hother⟩ := accepted_of_handsOut handed rfl
      have same : tree = other := List.singleton_inj.1 forest
      rcases kind_eq_start_or_strays hother with start | ⟨strays, yield⟩
      · rw [same]
        exact start
      · exact absurd strays (none other yield)

/-! ## §3. A tree that strays. -/

/-- The rules `S => A x` and `A => a <eos>`. -/
def strayRules : List (Rule Symbol) :=
  [⟨0, .nonTerminal "S", [.nonTerminal "A", .terminal "x"]⟩,
    ⟨1, .nonTerminal "A", [.terminal "a", .endMarker]⟩]

/-- The table of these rules. -/
def strayTable : DecisionTable Symbol :=
  .ofRuleSet ⟨strayRules, by decide, by decide, by decide⟩

/-- The tokens `a <eos>`, which `S` does not derive. -/
def strayStream : TokenStream Symbol :=
  .ofKinds [.terminal "a", .endMarker]

/-- The tokens reduced to `A`. -/
def strayTree : ParseTree Symbol :=
  ParseTree.ofChildren (.nonTerminal "A") (strayStream.lexemes.map fun lexeme => .node lexeme [])

theorem build_strayRules : DecisionTable.build strayRules = .ok strayTable :=
  strayTable.build_rules

/-- The first result for these tokens has no failure, but its root is not the start symbol. -/
theorem accepted_root_ne_start :
    DecisionTable.build strayRules = .ok strayTable ∧
      HandsOut strayTable strayStream ⟨[strayTree], none⟩ ∧ strayTree.kind ≠ strayTable.start := by
  have run : (Search.next? (Problem.machine ⟨strayTable, strayStream⟩) {} 8 .initial).map Prod.fst =
      some (some ⟨[strayTree], none⟩) := by
    decide +kernel
  obtain ⟨⟨_, after⟩, handed, rfl⟩ := Option.map_eq_some_iff.1 run
  exact ⟨build_strayRules, ⟨{}, .initial, after, 8, .initial, handed⟩, by decide⟩

/-- The start symbol is not guaranteed for these tokens, since a tree over them strays. -/
theorem root_of_accepted_stray :
    ¬∀ tree, HandsOut strayTable strayStream ⟨[tree], none⟩ → tree.kind = strayTable.start := by
  intro guaranteed
  have none := ((root_of_accepted build_strayRules strayStream).2 (by decide) (by decide)).1 guaranteed
  refine none strayTree (by decide) ⟨?_, ?_⟩
  · refine ⟨⟨1, .nonTerminal "A", [.terminal "a", .endMarker]⟩, by decide, by decide,
      ParseTree.applies_ofChildren (by decide), by decide, ?_⟩
    exact .single ⟨⟨0, .nonTerminal "S", [.nonTerminal "A", .terminal "x"]⟩, by decide, rfl, rfl⟩
  · intro child mem
    obtain ⟨lexeme, _, rfl⟩ := List.mem_map.1 mem
    exact ParseTree.builtBy_leaf lexeme

end ShiftReduce
