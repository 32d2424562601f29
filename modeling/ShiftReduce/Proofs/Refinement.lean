/-
  ShiftReduce.Proofs.Refinement
  ────────────────────────────────
  **THE SEARCH HANDS OUT WHAT PLAIN RECURSION LISTS.**

  The search discards a branch where it forks, keeps histories and makes their
  moves again from the beginning.  The event tree is unfolded without any of
  this.  If it is finite, the search hands out the results at its leaves, from
  the left to the right, and its counters are numbers of leaves and of forks.

  Main statement: `collected_eq_yield`.
-/
import ShiftReduce.Proofs.Branch.Machine
import ShiftReduce.Proofs.Search.EventTree
import ShiftReduce.Proofs.Search.Verdict
import ShiftReduce.Symbol.Named

namespace ShiftReduce

variable {S : Type} [DecidableEq S] [GrammarSymbol S] {σ μ : Type}

/-! ## §1. Searches that are not stopped. -/

namespace Search

variable {machine : Machine S σ μ} {options : SearchOptions}

/-- The searches met by asking for results, one after the other. -/
inductive Asked (machine : Machine S σ μ) (options : SearchOptions) : Search S μ → Prop where
  | initial : Asked machine options initial
  | next {search after : Search S μ} {fuel : Nat} {result : Option (ParseResult S)}
      (asked : Asked machine options search)
      (handed : next? machine options fuel search = some (result, after)) :
      Asked machine options after

/-- A search has met the first forks of the tree, in pre-order, and has left the
subtrees in which the others lie. -/
theorem Asked.forks {inv : σ → Prop} (lawful : machine.Lawful inv) {tree : EventTree S}
    (unfolds : machine.Unfolds options.maxSteps [] tree) {search : Search S μ}
    (asked : Asked machine options search) :
    ∃ made left, Forks .initial search made ∧ Unexplored machine options search left ∧
      tree.forks = made ++ left.flatMap EventTree.forks := by
  induction asked with
  | initial =>
    refine ⟨[], [tree], .refl _, .cons unfolds .nil, ?_⟩
    rw [List.flatMap_singleton, List.nil_append]
  | next _ handed ih =>
    obtain ⟨made, left, forks, unexplored, same⟩ := ih
    obtain ⟨more, left', forks', unexplored', same'⟩ := unexplored_next? lawful unexplored handed
    exact ⟨made ++ more, left', forks.trans forks', unexplored', by
      rw [same, same', List.append_assoc]⟩

omit [DecidableEq S] in
/-- The counters of a search that has met so many of the forks of a tree. -/
theorem Forks.counters {search : Search S μ} {made later : List Nat} {tree : EventTree S}
    (forks : Forks .initial search made) (same : tree.forks = made ++ later) :
    search.forks ≤ tree.forks.length ∧
      search.explored + search.pending.length =
        1 + ((tree.forks.take search.forks).map (· - 1)).sum := by
  have count : search.forks = made.length := by
    rw [forks.forks]
    exact Nat.zero_add _
  constructor
  · rw [count, same, List.length_append]
    omega
  · rw [count, same, List.take_left, forks.balance]
    rfl

end Search

/-! ## §2. The search against the tree. -/

/-- If the event tree is finite, the search hands out the results at its leaves,
from the left to the right, and has then explored as many branches as there are
leaves and met all forks.  Whenever a result has been asked for, each fork met so
far has added its moves but one to the branches explored or left to explore. -/
theorem collected_eq_yield (table : DecisionTable S) (stream : TokenStream S) (options : SearchOptions)
    (kept : options.deduplicate = false) {fuel : Nat} {tree : EventTree S}
    (finite : (Problem.machine ⟨table, stream⟩).eventTree? options.maxSteps fuel 0
      (Problem.start ⟨table, stream⟩) = some tree) :
    (∃ final enough,
      (∀ fuel, enough ≤ fuel →
        Search.collect? (Problem.machine ⟨table, stream⟩) options fuel .initial =
          some (tree.yield, final)) ∧
      final.pending = [] ∧ final.explored = tree.leaves.length ∧ final.forks = tree.forks.length) ∧
    ∀ search, Search.Asked (Problem.machine ⟨table, stream⟩) options search →
      search.forks ≤ tree.forks.length ∧
        search.explored + search.pending.length =
          1 + ((tree.forks.take search.forks).map (· - 1)).sum := by
  have lawful := Problem.machine_lawful (⟨table, stream⟩ : Problem S)
  constructor
  · have enumerated : (Problem.machine ⟨table, stream⟩).enumerate? options.maxSteps fuel 0
        (Problem.start ⟨table, stream⟩) = some tree.harvest := by
      rw [Machine.enumerate?_eq, finite]
      rfl
    obtain ⟨enough, collected⟩ := Search.collects_initial lawful enumerated
    rw [Search.reported_eq_self kept] at collected
    refine ⟨_, enough, fun fuel more => Search.collect?_mono more collected, rfl, ?_, ?_⟩
    · -- As many branches have been explored as there are results, one for each leaf.
      show 0 + (tree.leaves.map Tree.label).length = _
      rw [List.length_map, Nat.zero_add]
    · exact Nat.zero_add _
  · intro search asked
    obtain ⟨made, left, forks, _, same⟩ := asked.forks lawful ⟨fuel, finite⟩
    exact forks.counters same

/-- The rules `A => b` and `A => b c`, by which there are two ways to go on from `b`. -/
def shortLongTable : DecisionTable Symbol :=
  .ofRuleSet ⟨[⟨0, .nonTerminal "A", [.terminal "b"]⟩,
    ⟨1, .nonTerminal "A", [.terminal "b", .terminal "c"]⟩], by decide, by decide, by decide⟩

/-- The tokens `b c <eos>`. -/
def shortLongStream : TokenStream Symbol :=
  .ofKinds [.terminal "b", .terminal "c", .endMarker]

/-- The two branches for `b c <eos>` are handed out after one fork. -/
theorem collected_eq_yield_short_long :
    ∃ (tree : EventTree Symbol) (final : Search Symbol (Move Symbol)) (enough : Nat),
      tree.forks = [2] ∧ tree.yield.map (·.isAccepted) = [false, true] ∧
      Search.collect? (Problem.machine ⟨shortLongTable, shortLongStream⟩) {} enough .initial =
        some (tree.yield, final) ∧
      final.explored = 2 ∧ final.forks = 1 := by
  have unfolded : ((Problem.machine ⟨shortLongTable, shortLongStream⟩).eventTree? none 8 0
      (Problem.start ⟨shortLongTable, shortLongStream⟩)).map
        (fun tree => (tree.forks, tree.yield.map (·.isAccepted))) = some ([2], [false, true]) := by
    decide +kernel
  obtain ⟨tree, finite, same⟩ := Option.map_eq_some_iff.1 unfolded
  obtain ⟨forks, accepted⟩ := Prod.mk.inj same
  obtain ⟨⟨final, enough, collected, _, explored, counted⟩, _⟩ :=
    collected_eq_yield shortLongTable shortLongStream {} rfl finite
  refine ⟨tree, final, enough, forks, accepted, collected enough (Nat.le_refl _), ?_, ?_⟩
  · have leaves := congrArg List.length accepted
    rw [List.length_map, Tree.yield, List.length_map] at leaves
    rw [explored, leaves]
    rfl
  · rw [counted, forks]
    rfl

end ShiftReduce
