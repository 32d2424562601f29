/-
  ShiftReduce.Proofs.Bound
  ────────────────────────────────
  **THE BOUND ON THE MOVES IS EXACT.**

  Every move adds one node to the trees on the stack: a shift adds a leaf, a
  reduction a node over trees that are there.  An accepted tree therefore shows
  how many moves its branch has made, and a larger bound adds to the accepted
  results nothing but larger trees.  All this holds of cyclic grammars as well.

  Main statements: `metered_machine` and `bounded_search_exact`.
-/
import ShiftReduce.Proofs.Branch.Failures
import ShiftReduce.Proofs.Branch.Soundness
import ShiftReduce.Proofs.Search.Bound
import ShiftReduce.Proofs.Search.Verdict
import ShiftReduce.Symbol.Named

namespace ShiftReduce

variable {S : Type} [DecidableEq S] [GrammarSymbol S]

/-! ## §1. The number of nodes on the stack. -/

omit [DecidableEq S] [GrammarSymbol S] in
theorem Token.size_erase (token : Token S) : token.erase.size = token.size :=
  Tree.size_map _ token

omit [DecidableEq S] [GrammarSymbol S] in
theorem TokenStream.size_of_get? {stream : TokenStream S} {index : Nat} {token : Token S}
    (h : stream.get? index = some token) : token.size = 1 := by
  obtain ⟨lexeme, _, leaf, _⟩ := TokenStream.get?_eq_some h
  rw [← Token.size_erase, leaf, Tree.size_node]
  rfl

namespace Problem

/-- The number of nodes of the trees on a stack. -/
def nodeCount (trees : List (Token S)) : Nat :=
  (trees.map Tree.size).sum

omit [DecidableEq S] [GrammarSymbol S] in
theorem nodeCount_cons (token : Token S) (trees : List (Token S)) :
    nodeCount (token :: trees) = token.size + nodeCount trees := by
  rw [nodeCount, List.map_cons, List.sum_cons, nodeCount]

omit [DecidableEq S] [GrammarSymbol S] in
theorem nodeCount_singleton (token : Token S) : nodeCount [token] = token.size := by
  rw [nodeCount_cons]
  rfl

variable {problem : Problem S}

/-- Every transition adds one node. -/
theorem nodeCount_transition {item : Item S} {trees trees' : List (Token S)} {cursor cursor' : Nat}
    (h : problem.Transition item trees cursor trees' cursor') :
    nodeCount trees' = nodeCount trees + 1 := by
  cases h with
  | shift _ next =>
    rw [nodeCount_cons, TokenStream.size_of_get? next, Nat.add_comm]
  | contract =>
    -- The node counts its children and itself, and the children leave the stack.
    rw [nodeCount_cons, Token.reduce, Tree.size_node, nodeCount, nodeCount, List.map_append,
      List.sum_append, List.map_reverse, List.sum_reverse]
    omega

/-! ## §2. Branches as a metered machine. -/

/-- What holds of every branch after so many moves: they have been counted, there
is one node more on the stack unless the branch has failed, and it has failed
in some other phase than that of completion, which is kept for interruptions. -/
structure Meter (problem : Problem S) (steps : Nat) (branch : Branch S) : Prop where
  clean : branch.stack.popped = []
  counted : branch.steps = steps
  upright : branch.error = none →
    problem.Upright branch ∧ nodeCount branch.stack.items = steps + 1
  failed : ∀ error, branch.error = some error → error.phase ≠ .complete

variable {steps : Nat} {branch : Branch S}

theorem meter_start (problem : Problem S) : problem.Meter 0 problem.start where
  clean := clean_start problem
  counted := steps_start problem
  upright := by
    intro alive
    refine ⟨upright_start alive, ?_⟩
    rcases start_cases problem with ⟨token, next, moved, start, stands⟩ | ⟨_, failed⟩
    · rw [start, stack_complete, stands.stack, nodeCount_singleton, TokenStream.size_of_get? next]
    · rw [alive] at failed
      cases failed
  failed := by
    intro error failed
    rw [phase_of_start failed]
    decide

/-- A move adds one to the moves made and one node to the stack. -/
theorem Meter.apply (meter : problem.Meter steps branch) (going : branch.isOver = false)
    {move : Move S} (proposed : move ∈ (problem.nextMoves branch).1) :
    problem.Meter (steps + 1) (problem.apply move branch).branch := by
  have alive : branch.error = none := (Branch.isOver_eq_false_iff.1 going).2
  obtain ⟨upright, count⟩ := meter.upright alive
  refine ⟨clean_apply problem move meter.clean, ?_, ?_, ?_⟩
  · rw [steps_apply problem move alive, meter.counted]
  · intro alive'
    have advances := advances_of_play meter.clean going proposed alive'
    refine ⟨upright.advance advances, ?_⟩
    obtain ⟨rule, _, position, _, _, _, trees, cursor, moved, transition, after, stands⟩ :=
      advances.inversion
    rw [after, stack_complete, stands.stack, nodeCount_transition transition, count]
  · intro error failed complete
    have within := phase_of_apply meter.clean alive failed
    have without : Phase.complete ∉ movePhases := by decide
    exact without (complete ▸ within)

/-- The branches of a problem are metered by their trees. -/
theorem metered_machine (problem : Problem S) : problem.machine.Metered problem.Meter where
  start := meter_start problem
  play := fun _ _ _ meter going proposed => meter.apply going proposed
  accepted := by
    intro steps branch meter ended accepted
    have alive : branch.error = none := Option.isNone_iff_eq_none.1 accepted
    have ending : problem.machine.ending? none steps branch = some branch.result :=
      Machine.ending?_of_isOver ended
    obtain ⟨_, done, forest⟩ := accepted_of_ending meter.clean ending alive
    obtain ⟨upright, count⟩ := meter.upright alive
    obtain ⟨token, items, _⟩ := upright.done done
    refine ⟨token.erase, forest.trans (by rw [items]; rfl), ?_⟩
    rw [items, nodeCount_singleton] at count
    rw [Token.size_erase, count]
  finished := by
    intro steps branch meter _ cut
    obtain ⟨error, failed, complete⟩ := cut
    exact meter.failed error failed complete
  stuck := by
    intro steps branch meter going nothing
    obtain ⟨error, failed, predicting⟩ := phase_of_nextMoves meter.clean going nothing
    constructor
    · show (problem.nextMoves branch).2.error.isNone = false
      rw [failed]
      rfl
    · intro cut
      obtain ⟨other, failed', complete⟩ := cut
      cases failed.symm.trans failed'
      rw [predicting] at complete
      cases complete
  cut := fun branch going => phase_of_interrupt going

end Problem

/-! ## §3. Searches with a bound. -/

/-- Under a bound on the moves every search ends, no branch makes more moves,
and a branch that is accepted has made one for each node of its tree but one.
A branch is interrupted only where it has used up the bound and is not over.
A larger bound adds no accepted results but those whose trees the smaller one
does not allow for, and nothing at all if no branch has been interrupted. -/
theorem bounded_search_exact (table : DecisionTable S) (stream : TokenStream S) (deduplicate : Bool) :
    (∀ bound, ∃ results final enough,
      (∀ fuel, enough ≤ fuel →
        Search.collect? (Problem.machine ⟨table, stream⟩) { deduplicate, maxSteps := some bound } fuel
          .initial = some (results, final)) ∧
      ∀ result ∈ results, (Problem.machine ⟨table, stream⟩).EndsIn (some bound) result) ∧
    (∀ bound history branch,
      Machine.Run (Problem.machine ⟨table, stream⟩) (some bound) 0 (Problem.start ⟨table, stream⟩)
        history branch →
      branch.steps = history.length ∧ history.length ≤ bound ∧
        ∀ result, (Problem.machine ⟨table, stream⟩).ending? (some bound) history.length branch =
            some result →
          (result.error = none →
            ∃ tree, result.forest = [tree] ∧ history.length = tree.size - 1) ∧
          (result.IsCut ↔ branch.isOver = false ∧ history.length = bound)) ∧
    ∀ bound wider, bound ≤ wider → ∀ fuel more short long final final',
      Search.collect? (Problem.machine ⟨table, stream⟩) { deduplicate, maxSteps := some bound } fuel
        .initial = some (short, final) →
      Search.collect? (Problem.machine ⟨table, stream⟩) { deduplicate, maxSteps := some wider } more
        .initial = some (long, final') →
      short.filter ParseResult.isAccepted = long.filter (ParseResult.isWithin bound) ∧
        ((∀ result ∈ short, ¬result.IsCut) → long = short) := by
  have lawful := Problem.machine_lawful (⟨table, stream⟩ : Problem S)
  have metered := Problem.metered_machine (⟨table, stream⟩ : Problem S)
  refine ⟨?_, ?_, ?_⟩
  · intro bound
    obtain ⟨results, final, enough, collected, _, members⟩ := Search.exists_collect lawful
      { deduplicate, maxSteps := some bound } (Machine.exists_enumerate_of_bound lawful bound)
    refine ⟨_, final, enough, collected, fun result mem => ?_⟩
    exact (members result).1 (Search.mem_of_mem_reported mem)
  · intro bound history branch run
    have meter := run.counted (Problem.Meter ⟨table, stream⟩) metered.play metered.start
    have within := run.add_length_le (Nat.zero_le bound)
    rw [Nat.zero_add] at meter within
    refine ⟨meter.counted, within, fun result ended => ?_⟩
    have ended' : (Problem.machine ⟨table, stream⟩).ending? (some bound) (0 + history.length) branch =
        some result := by
      rw [Nat.zero_add]
      exact ended
    constructor
    · intro accepted
      obtain ⟨_, tree, forest, size⟩ := metered.accepted_of_run metered.start run ended'
        (Option.isNone_iff_eq_none.2 accepted)
      exact ⟨tree, forest, by omega⟩
    · rw [metered.isCut_iff metered.start run ended', Option.any_some, decide_eq_true_eq,
        Nat.zero_add]
      exact and_congr_right fun _ => ⟨Nat.le_antisymm within, fun h => Nat.le_of_eq h.symm⟩
  · intro bound wider le fuel more short long final final' hshort hlong
    have curtails := Search.curtails_of_collects lawful metered le ⟨fuel, hshort⟩ ⟨more, hlong⟩
    exact ⟨curtails.accepted, curtails.same⟩

/-- The rules `S => A <eos>`, `A => A` and `A => b`, of which the second is a cycle. -/
def cyclicTable : DecisionTable Symbol :=
  .ofRuleSet ⟨[⟨0, .nonTerminal "S", [.nonTerminal "A", .endMarker]⟩,
    ⟨1, .nonTerminal "A", [.nonTerminal "A"]⟩, ⟨2, .nonTerminal "A", [.terminal "b"]⟩],
    by decide, by decide, by decide⟩

/-- The tokens `b <eos>`. -/
def cyclicStream : TokenStream Symbol :=
  .ofKinds [.terminal "b", .endMarker]

/-- Three moves are enough for one tree over `b <eos>`, and five for three trees,
of which one has at most four nodes. -/
theorem bounded_search_exact_cyclic :
    ∃ (short long : List (ParseResult Symbol)) (final final' : Search Symbol (Move Symbol)),
      Search.collect? (Problem.machine ⟨cyclicTable, cyclicStream⟩) { maxSteps := some 3 } 20
        .initial = some (short, final) ∧
      Search.collect? (Problem.machine ⟨cyclicTable, cyclicStream⟩) { maxSteps := some 5 } 20
        .initial = some (long, final') ∧
      (long.filter ParseResult.isAccepted).length = 3 ∧
      (long.filter (ParseResult.isWithin 3)).length = 1 ∧
      short.filter ParseResult.isAccepted = long.filter (ParseResult.isWithin 3) := by
  have shortened : ((Search.collect? (Problem.machine ⟨cyclicTable, cyclicStream⟩)
      { maxSteps := some 3 } 20 .initial).map fun _ => ()) = some () := by
    decide +kernel
  have whole : (Search.collect? (Problem.machine ⟨cyclicTable, cyclicStream⟩)
      { maxSteps := some 5 } 20 .initial).map (fun collected =>
        ((collected.1.filter ParseResult.isAccepted).length,
          (collected.1.filter (ParseResult.isWithin 3)).length)) = some (3, 1) := by
    decide +kernel
  obtain ⟨⟨short, final⟩, hshort, _⟩ := Option.map_eq_some_iff.1 shortened
  obtain ⟨⟨long, final'⟩, hlong, counts⟩ := Option.map_eq_some_iff.1 whole
  obtain ⟨accepted, within⟩ := Prod.mk.inj counts
  obtain ⟨_, _, agree⟩ := bounded_search_exact cyclicTable cyclicStream false
  have agreed := agree 3 5 (by decide) 20 20 short long final final' hshort hlong
  exact ⟨short, long, final, final', hshort, hlong, accepted, within, agreed.1⟩

end ShiftReduce
