/-
  ShiftReduce.Proofs.PredictionShortcuts
  ────────────────────────────────
  **PREDICTION LOSES NOTHING BY ITS SHORTCUTS, AND GAINS NOTHING.**

  A sole candidate is proposed without a look at the stack or the next token,
  and an inspection stops at a sole item that is still live.  Where an item
  matches, the moves are nevertheless those of the items that match.  Where
  none does, the search may go on for a while, but no branch that it follows
  from there is accepted.

  This takes that left-hand sides are no terminals and that tokens are.

  Main statement: `prediction_shortcuts_lossless`.
-/
import ShiftReduce.Proofs.Branch.DeadEnds
import ShiftReduce.Proofs.Branch.Termination
import ShiftReduce.Proofs.Branch.Verified
import ShiftReduce.Proofs.Grammar.Build
import ShiftReduce.Symbol.Named

namespace ShiftReduce

variable {S : Type} [DecidableEq S] [GrammarSymbol S]

namespace Problem

variable {problem : Problem S} {branch : Branch S} {maxSteps : Option Nat}

/-! ## §1. The machine without shortcuts. -/

/-- Where items match, their moves are proposed, and the branch is left as it is. -/
theorem verifiedMoves_of_ne_nil (going : branch.isOver = false) (some : problem.verifiedItems branch ≠ []) :
    problem.verifiedMoves branch = ((problem.verifiedItems branch).map Move.ofItem, branch) := by
  unfold verifiedMoves
  rw [if_neg (by rw [going]; exact Bool.false_ne_true)]
  split
  · next none => exact absurd (List.map_eq_nil_iff.1 none) some
  · rfl

/-- Where none does, the branch fails. -/
theorem verifiedMoves_of_nil (going : branch.isOver = false) (none : problem.verifiedItems branch = []) :
    (problem.verifiedMoves branch).1 = [] ∧ (problem.verifiedMoves branch).2.error.isSome = true := by
  unfold verifiedMoves
  rw [if_neg (by rw [going]; exact Bool.false_ne_true), none]
  exact ⟨rfl, Branch.isSome_error_fail _ _⟩

/-- What is proposed are the moves of the items that match. -/
theorem of_mem_verifiedMoves {move : Move S} (h : move ∈ (problem.verifiedMoves branch).1) :
    branch.isOver = false ∧ ∃ item ∈ problem.verifiedItems branch, move = .ofItem item := by
  cases going : branch.isOver with
  | true =>
    unfold verifiedMoves at h
    rw [if_pos going] at h
    cases h
  | false =>
    refine ⟨rfl, ?_⟩
    by_cases none : problem.verifiedItems branch = []
    · rw [(verifiedMoves_of_nil going none).1] at h
      cases h
    · rw [verifiedMoves_of_ne_nil going none] at h
      obtain ⟨item, mem, rfl⟩ := List.mem_map.1 h
      exact ⟨item, mem, rfl⟩

theorem followsRules_verifiedMoves (problem : Problem S) : problem.FollowsRules problem.verifiedMoves := by
  intro branch _ move proposed
  obtain ⟨_, item, mem, rfl⟩ := of_mem_verifiedMoves proposed
  obtain ⟨_, _, hitem⟩ := (mem_verifiedItems.1 mem).mem
  obtain ⟨rule, hrule, position, _, rfl⟩ := DecisionTable.mem_items.1 hitem
  exact ⟨rule, hrule, position, rfl⟩

theorem verifyingMachine_lawful (problem : Problem S) :
    problem.verifyingMachine.Lawful fun branch => branch.stack.popped = [] where
  start := clean_start problem
  play := (machine_lawful problem).play
  looked := by
    intro branch move _ some
    obtain ⟨first, proposed⟩ := List.exists_mem_of_ne_nil _ some
    obtain ⟨going, item, mem, _⟩ := of_mem_verifiedMoves proposed
    have looked : (problem.verifyingMachine.moves branch).2 = branch :=
      congrArg Prod.snd (verifiedMoves_of_ne_nil going (List.ne_nil_of_mem mem))
    rw [looked]
  refused := (machine_lawful problem).refused

/-! ## §2. The two searches. -/

/-- Where no item matches, both machines only have branches that are not accepted. -/
theorem barren_verifying_of_nil (going : branch.isOver = false) (none : problem.verifiedItems branch = []) :
    problem.verifyingMachine.Barren maxSteps branch := by
  obtain ⟨nothing, failed⟩ := verifiedMoves_of_nil going none
  refine Machine.barren_of_moves going (isAccepted_of_failed (error_interrupt going))
    (fun _ => isAccepted_of_failed failed) ?_
  intro move proposed
  have proposed : move ∈ (problem.verifiedMoves branch).1 := proposed
  rw [nothing] at proposed
  cases proposed

/-- The shortcuts only let branches go on that are not accepted. -/
theorem prunes_shortcuts (typed : problem.Typed) (maxSteps : Option Nat) :
    Machine.Prunes problem.verifyingMachine problem.machine maxSteps problem.Regular where
  start := rfl
  isOver := rfl
  interrupt := rfl
  result := rfl
  holds := regular_start problem
  play := by
    intro branch move regular going proposed
    exact regular.play going proposed
  stuck := by
    intro branch regular going
    refine ⟨fun nothing => ?_, isAccepted_of_nextMoves_eq_nil regular.clean going⟩
    have nothing : (problem.verifiedMoves branch).1 = [] := nothing
    by_cases none : problem.verifiedItems branch = []
    · exact isAccepted_of_failed (verifiedMoves_of_nil going none).2
    · rw [verifiedMoves_of_ne_nil going none] at nothing
      exact absurd (List.map_eq_nil_iff.1 nothing) none
  agree := by
    intro branch regular going
    by_cases none : problem.verifiedItems branch = []
    · refine .inl ⟨barren_verifying_of_nil going none, barren_of_unmatched typed regular going ?_⟩
      intro item matched
      have mem := mem_verifiedItems.2 matched
      rw [none] at mem
      cases mem
    · refine .inr ⟨?_, fun move _ => .inl rfl⟩
      show (problem.verifiedMoves branch).1 = (problem.nextMoves branch).1
      rw [verifiedMoves_of_ne_nil going none,
        nextMoves_eq_verified regular.clean going (regular.linked going) none]

end Problem

/-- Whatever the rules for non-terminals, the tokens and the options: wherever
the search ends as it is done and with every proposal verified, it hands out the
same accepted results, in the same order and as often.  With a bound on the
moves, or without a cycle of one-symbol rules, it does end. -/
theorem prediction_shortcuts_lossless {rules : List (Rule S)} {table : DecisionTable S}
    (built : DecisionTable.build rules = .ok table)
    (lhs : ∀ rule ∈ rules, GrammarSymbol.isTerminal rule.lhs = false) (stream : TokenStream S)
    (tokens : ∀ lexeme ∈ stream.lexemes, GrammarSymbol.isTerminal lexeme.kind = true)
    (options : SearchOptions) :
    (∀ results final others final',
      Search.Collects (Problem.machine ⟨table, stream⟩) options .initial results final →
      Search.Collects (Problem.verifyingMachine ⟨table, stream⟩) options .initial others final' →
      acceptedOf results = acceptedOf others) ∧
    (options.maxSteps.isSome = true ∨ Acyclic rules →
      ∃ results final others final',
        Search.Collects (Problem.machine ⟨table, stream⟩) options .initial results final ∧
        Search.Collects (Problem.verifyingMachine ⟨table, stream⟩) options .initial others final') := by
  have lawful := Problem.machine_lawful (⟨table, stream⟩ : Problem S)
  have lawful' := Problem.verifyingMachine_lawful (⟨table, stream⟩ : Problem S)
  have typed : Problem.Typed ⟨table, stream⟩ :=
    ⟨fun rule hrule => lhs rule ((DecisionTable.mem_rules_of_build built).1 hrule), tokens⟩
  constructor
  · intro results final others final' h h'
    exact (Search.accepted_of_collects (Problem.prunes_shortcuts typed options.maxSteps) lawful' lawful
      (fun _ regular => regular.clean) (fun _ regular => regular.clean) h' h).symm
  · intro finite
    have finite' := finite.imp_right (DecisionTable.acyclic_of_build built)
    have judges := Problem.judges_checkAdjacency (⟨table, stream⟩ : Problem S)
    obtain ⟨results, final, collects⟩ := Search.exists_collects lawful options
      (Problem.exists_enumerateWith ⟨table, stream⟩ judges finite')
    obtain ⟨others, final', collects'⟩ := Search.exists_collects lawful' options
      (Problem.exists_enumerate_of_followsRules ⟨table, stream⟩ judges
        (Problem.followsRules_verifiedMoves _) lawful' finite')
    exact ⟨results, final, others, final', collects, collects'⟩

/-! ## §3. An item proposed above a stack that it does not match. -/

/-- The rules `S => p y X d`, `S => q y W d`, `X => m` and `W => m`. -/
def rivalRules : List (Rule Symbol) :=
  [⟨0, .nonTerminal "S", [.terminal "p", .terminal "y", .nonTerminal "X", .terminal "d"]⟩,
    ⟨1, .nonTerminal "S", [.terminal "q", .terminal "y", .nonTerminal "W", .terminal "d"]⟩,
    ⟨2, .nonTerminal "X", [.terminal "m"]⟩, ⟨3, .nonTerminal "W", [.terminal "m"]⟩]

/-- The table of these rules. -/
def rivalTable : DecisionTable Symbol :=
  .ofRuleSet ⟨rivalRules, by decide, by decide, by decide⟩

/-- The tokens `q y m d`. -/
def rivalStream : TokenStream Symbol :=
  .ofKinds [.terminal "q", .terminal "y", .terminal "m", .terminal "d"]

/-- Over `q y m d` the only item of an `X` is proposed although a `q` and no `p`
lies below.  Its branch shifts `d` before it fails, which it does at once if
every proposal is verified; the one accepted result is the same. -/
theorem prediction_shortcuts_lossless_rival :
    ∃ results final others final',
      Search.Collects (Problem.machine ⟨rivalTable, rivalStream⟩) {} .initial results final ∧
      Search.Collects (Problem.verifyingMachine ⟨rivalTable, rivalStream⟩) {} .initial others final' ∧
      results.map (fun result => (result.isAccepted, result.forest.length)) = [(false, 4), (true, 1)] ∧
      others.map (fun result => (result.isAccepted, result.forest.length)) = [(false, 3), (true, 1)] ∧
      acceptedOf results = acceptedOf others := by
  have shortcut : ((Search.collect? (Problem.machine ⟨rivalTable, rivalStream⟩) {} 12 .initial).map
      fun collected => collected.1.map fun result => (result.isAccepted, result.forest.length)) =
        some [(false, 4), (true, 1)] := by
    decide +kernel
  have verified : ((Search.collect? (Problem.verifyingMachine ⟨rivalTable, rivalStream⟩) {} 12
      .initial).map fun collected => collected.1.map fun result =>
        (result.isAccepted, result.forest.length)) = some [(false, 3), (true, 1)] := by
    decide +kernel
  obtain ⟨⟨results, final⟩, hresults, shown⟩ := Option.map_eq_some_iff.1 shortcut
  obtain ⟨⟨others, final'⟩, hothers, shown'⟩ := Option.map_eq_some_iff.1 verified
  have built : DecisionTable.build rivalRules = .ok rivalTable := rivalTable.build_rules
  obtain ⟨agree, _⟩ := prediction_shortcuts_lossless built (by decide) rivalStream (by decide) {}
  exact ⟨results, final, others, final', ⟨12, hresults⟩, ⟨12, hothers⟩, shown, shown',
    agree results final others final' ⟨12, hresults⟩ ⟨12, hothers⟩⟩

end ShiftReduce
