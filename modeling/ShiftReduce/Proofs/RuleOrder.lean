/-
  ShiftReduce.Proofs.RuleOrder
  ────────────────────────────────
  **OF THE NUMBERS OF RULES ONLY THEIR ORDER MATTERS.**

  Rules may be listed in any order, for they are sorted by their numbers before
  anything else happens; and the numbers may be changed as long as the smaller
  ones stay the smaller ones, for nothing else is asked of them.  A number only
  comes out again where it has gone in: in a refusal, and in the items of a table.

  Main statement: `rule_order_immaterial`.
-/
import ShiftReduce.Proofs.Renumbering.Branch
import ShiftReduce.Proofs.SymbolOrder
import ShiftReduce.Symbol.Named

namespace ShiftReduce

variable {S : Type} [GrammarSymbol S]

theorem Answer.rename_refl : Answer.rename (Renaming.refl : Renaming S S) = id := by
  funext answer
  rw [Answer.rename, ParseResult.rename_refl, Option.map_id]
  rfl

variable [DecidableEq S]

/-- Searches of a machine that only renumbers another one show the same. -/
theorem Machine.Renames.same_answers {σ τ μ ν : Type} {machine : Machine S σ μ} {image : Machine S τ ν}
    {state : σ → τ} {move : μ → ν} (renames : machine.Renames Renaming.refl image state move)
    (options : SearchOptions) (fuel calls : Nat) :
    Search.answers? image options fuel calls .initial =
      Search.answers? machine options fuel calls .initial := by
  have renamed := renames.answers? options fuel calls .initial
  rw [Answer.rename_refl, List.map_id_fun, Option.map_id] at renamed
  exact renamed

/-- They collect the same results. -/
theorem Machine.Renames.same_results {σ τ μ ν : Type} {machine : Machine S σ μ} {image : Machine S τ ν}
    {state : σ → τ} {move : μ → ν} (renames : machine.Renames Renaming.refl image state move)
    (options : SearchOptions) (fuel : Nat) :
    (Search.collect? image options fuel .initial).map Prod.fst =
      (Search.collect? machine options fuel .initial).map Prod.fst := by
  have collected : Search.collect? image options fuel .initial = _ :=
    renames.collect? options fuel .initial
  rw [collected, Option.map_map, ParseResult.rename_refl]
  refine congrArg (Option.map · _) (funext fun found => ?_)
  exact List.map_id found.1

/-- The rules listed in another order are refused for the same reason or make the
same table.  With other numbers in the same order they are refused for the same
reason but for the number in it, or make a table that differs only by the numbers
of the rules, and every search by it answers every call with the same result and
the same counters. -/
theorem rule_order_immaterial (rules : List (Rule S)) :
    (∀ others : List (Rule S), others.Perm rules →
      DecisionTable.build others = DecisionTable.build rules) ∧
    ∀ g : Nat → Nat, (∀ a ∈ rules, ∀ b ∈ rules, a.id < b.id → g a.id < g b.id) →
      (∀ error, DecisionTable.build rules = .error error →
        DecisionTable.build (rules.map (Rule.renumber g)) = .error (error.renumber g)) ∧
      ∀ table, DecisionTable.build rules = .ok table →
        ∃ image, DecisionTable.build (rules.map (Rule.renumber g)) = .ok image ∧
          table.Renumbers g image ∧
          ∀ (stream : TokenStream S) (options : SearchOptions) (fuel : Nat),
            (∀ calls, Search.answers? (Problem.machine ⟨image, stream⟩) options fuel calls .initial =
              Search.answers? (Problem.machine ⟨table, stream⟩) options fuel calls .initial) ∧
            (Search.collect? (Problem.machine ⟨image, stream⟩) options fuel .initial).map Prod.fst =
              (Search.collect? (Problem.machine ⟨table, stream⟩) options fuel .initial).map Prod.fst := by
  refine ⟨fun others perm => DecisionTable.build_of_perm perm, fun g increasing => ⟨?_, ?_⟩⟩
  · intro error refused
    have same := DecisionTable.build_renumber increasing
    rw [refused] at same
    exact same
  · intro table built
    have same := DecisionTable.build_renumber increasing
    rw [built] at same
    obtain ⟨image, built', renumbers⟩ := same
    refine ⟨image, built', renumbers, fun stream options fuel => ?_⟩
    have renames := Problem.renames_renumber renumbers stream
    exact ⟨fun calls => renames.same_answers options fuel calls, renames.same_results options fuel⟩

/-- The rules `E => a` with the number 7 and `E => E E` with the number 3. -/
def scatteredRules : List (Rule Symbol) :=
  [⟨7, .nonTerminal "E", [.terminal "a"]⟩, ⟨3, .nonTerminal "E", [.nonTerminal "E", .nonTerminal "E"]⟩]

/-- Their table. -/
def scatteredTable : DecisionTable Symbol :=
  .ofRuleSet ⟨[⟨3, .nonTerminal "E", [.nonTerminal "E", .nonTerminal "E"]⟩,
    ⟨7, .nonTerminal "E", [.terminal "a"]⟩], by decide, by decide, by decide⟩

/-- The tokens `a a a`. -/
def scatteredStream : TokenStream Symbol :=
  .ofKinds [.terminal "a", .terminal "a", .terminal "a"]

/-- Listed the other way round, the rules make the same table; with the numbers
30 and 70 they make another one, by which the two parses of `a a a` are found as well. -/
theorem rule_order_immaterial_scattered :
    DecisionTable.build scatteredRules.reverse = .ok scatteredTable ∧
      ∃ image, DecisionTable.build (scatteredRules.map (Rule.renumber (10 * ·))) = .ok image ∧
        image.rules.toList.map Rule.id = [30, 70] ∧
        ((Search.collect? (Problem.machine ⟨image, scatteredStream⟩) {} 20 .initial).map Prod.fst).map
          (List.map ParseResult.isAccepted) = some [true, true] := by
  have sorted : scatteredRules.Perm scatteredTable.rules.toList := by
    decide
  have built : DecisionTable.build scatteredRules = .ok scatteredTable :=
    (DecisionTable.build_of_perm sorted).trans scatteredTable.build_rules
  obtain ⟨listed, numbered⟩ := rule_order_immaterial scatteredRules
  obtain ⟨_, other⟩ := numbered (10 * ·) (by decide)
  obtain ⟨image, built', renumbers, searches⟩ := other scatteredTable built
  refine ⟨(listed _ (List.reverse_perm _)).trans built, image, built', ?_, ?_⟩
  · rw [renumbers.rules]
    decide
  · rw [(searches scatteredStream {} 20).2]
    decide +kernel

end ShiftReduce
