/-
  ShiftReduce.Proofs.AdjacencyCheck
  ────────────────────────────────
  **THE CHECK OF ADJACENCY LOSES NO PARSE.**

  A node that may not sit above its neighbour is refused at once.  Without the
  check the branch would go on with it; but a rule read backwards takes a stack
  without a misplaced symbol to another one, so that a misplaced symbol, once on
  the stack, stays with the branch as long as it lasts.  The stack with which a
  branch is accepted holds the start symbol alone, which is not misplaced.

  This takes that rules which end with an end-marker are rules for the start
  symbol: what others accept is compared with nothing but the check.

  Main statement: `adjacency_check_lossless`.
-/
import ShiftReduce.Proofs.Branch.Termination
import ShiftReduce.Proofs.Grammar.Adjacency
import ShiftReduce.Proofs.Grammar.Build
import ShiftReduce.Proofs.Search.Pruning
import ShiftReduce.Symbol.Named

namespace ShiftReduce

variable {S : Type} [DecidableEq S] [GrammarSymbol S]

namespace Problem

variable {problem : Problem S} {branch after : Branch S} {move : Move S}
  {trees trees' : List (Token S)} {cursor cursor' : Nat} {maxSteps : Option Nat}

/-- The branches of a problem, with nothing checked after a reduction. -/
def uncheckedMachine (problem : Problem S) : Machine S (Branch S) (Move S) :=
  problem.machineWith .success

/-! ## §1. Misplaced symbols stay. -/

/-- No symbol on the stack is misplaced. -/
def Placed (problem : Problem S) (trees : List (Token S)) : Prop :=
  problem.table.Admissible (trees.map Token.kind)

theorem Placed.seated (h : problem.Placed trees) : problem.Seated trees := by
  rintro top rest rfl
  have follows := h.1
  rw [List.head?_map] at follows
  exact follows

/-- If no symbol is misplaced after a move, none was before it. -/
theorem Placed.of_rewrites {rule : Rule S} {position : Nat} (hrule : rule ∈ problem.table.rules.toList)
    (h : problem.Rewrites (problem.table.rules.itemAt rule position) trees cursor trees' cursor')
    (placed : problem.Placed trees') : problem.Placed trees := by
  cases h with
  | shift _ _ => exact placed.2
  | @contract children rest _ _ kinds _ =>
    have expanded := DecisionTable.Admissible.expand hrule placed
    have kinds : children.map Token.kind = rule.rhs := kinds
    unfold Placed
    rw [List.map_append, List.map_reverse, kinds]
    exact expanded

/-- The branch has failed, or it goes on with a misplaced symbol on its stack. -/
structure Misplaced (problem : Problem S) (branch : Branch S) : Prop where
  clean : branch.stack.popped = []
  going : branch.error = none → branch.done = false ∧ ¬problem.Placed branch.stack.items

/-- A move that leaves a symbol misplaced does not end its branch. -/
theorem misplaced_of_rewrites {rule : Rule S} {position : Nat} {moved : Branch S}
    (starts : rule.isTerminating = true → rule.lhs = problem.table.start)
    (hposition : position < rule.rhs.length)
    (whole : (problem.table.rules.itemAt rule position).action = .accept → position + 1 = trees.length)
    (h : problem.Rewrites (problem.table.rules.itemAt rule position) trees cursor trees' cursor')
    (stands : moved.Stands trees' cursor' (problem.table.rules.itemAt rule position).isAccept)
    (misplaced : ¬problem.Placed trees') : problem.Misplaced (problem.complete moved) := by
  by_cases accepts : (problem.table.rules.itemAt rule position).action = .accept
  · -- An accepting item leaves the start symbol alone on the stack.
    obtain ⟨_, terminating⟩ := RuleSet.action_itemAt_eq_accept.1 accepts
    obtain ⟨_, _, _, rfl, _⟩ := h.single hposition accepts (whole accepts)
    refine absurd ?_ misplaced
    show problem.table.Admissible [rule.lhs]
    rw [starts terminating]
    exact problem.table.admissible_start
  · have going : (problem.table.rules.itemAt rule position).isAccept = false := decide_eq_false accepts
    rw [going] at stands
    rcases stands_complete stands with going | ⟨_, _, kinds, _⟩
    · refine ⟨by rw [going.stack], fun _ => ⟨going.done, ?_⟩⟩
      rw [going.stack]
      exact misplaced
    · refine absurd ?_ misplaced
      unfold Placed
      rw [kinds]
      exact problem.table.admissible_start

/-- Moves do not get rid of a misplaced symbol. -/
theorem Misplaced.play (starts : ∀ rule ∈ problem.table.rules.toList, rule.isTerminating = true →
      rule.lhs = problem.table.start)
    (misplaced : problem.Misplaced branch) (going : branch.isOver = false)
    (proposed : move ∈ (problem.nextMoves branch).1) :
    problem.Misplaced (problem.applyWith .success move branch).branch := by
  have clean := clean_applyWith problem judges_success move misplaced.clean
  cases failed : (problem.applyWith .success move branch).branch.error with
  | some error =>
    refine ⟨clean, fun alive => ?_⟩
    rw [failed] at alive
    cases alive
  | none =>
    obtain ⟨_, lost⟩ := misplaced.going (Branch.isOver_eq_false_iff.1 going).2
    obtain ⟨rule, hrule, position, hposition, _, whole, trees, cursor, moved, rewrites, _, hafter, stands⟩ :=
      rewrites_of_applyWith judges_success misplaced.clean going proposed
        (applyWith_eq_success_of_alive _ failed)
    rw [hafter]
    exact misplaced_of_rewrites (starts rule hrule) hposition (fun accepts => (whole accepts).1) rewrites
      stands fun placed => lost (placed.of_rewrites hrule rewrites)

/-! ## §2. Branches that are not accepted. -/

theorem barren_of_misplaced (starts : ∀ rule ∈ problem.table.rules.toList,
      rule.isTerminating = true → rule.lhs = problem.table.start)
    (misplaced : problem.Misplaced branch) : problem.uncheckedMachine.Barren maxSteps branch := by
  refine Machine.barren_of_invariant ?_ ?_ misplaced
  · intro branch move misplaced going proposed
    exact misplaced.play starts going proposed
  · intro steps branch result misplaced ended
    by_contra accepted
    have accepted : result.error = none := by
      rw [Bool.not_eq_false] at accepted
      exact Option.isNone_iff_eq_none.1 accepted
    obtain ⟨alive, done, _⟩ := accepted_of_ending misplaced.clean ended accepted
    rw [(misplaced.going alive).1] at done
    cases done

/-! ## §3. The two searches. -/

/-- With the check a move leads to the same branch as without it, unless no
success comes from either. -/
theorem play_unchecked (starts : ∀ rule ∈ problem.table.rules.toList, rule.isTerminating = true →
      rule.lhs = problem.table.start)
    (clean : branch.stack.popped = []) (going : branch.isOver = false)
    (proposed : move ∈ (problem.nextMoves branch).1) :
    (problem.apply move branch).branch = (problem.applyWith .success move branch).branch ∨
      problem.machine.Barren maxSteps (problem.apply move branch).branch ∧
        problem.uncheckedMachine.Barren maxSteps (problem.applyWith .success move branch).branch := by
  have alive := (Branch.isOver_eq_false_iff.1 going).2
  have judges := judges_checkAdjacency problem
  cases refused : (problem.apply move branch).branch.error with
  | none =>
    -- What goes through with the check goes through without it.
    have through := applyWith_eq_success_of_alive problem.checkAdjacency refused
    obtain ⟨trees, cursor, rewrites, _, met, hafter⟩ := (applyWith_eq_success judges clean alive).1 through
    have through' := (applyWith_eq_success judges_success clean alive).2
      ⟨trees, cursor, rewrites, fun _ => trivial, met, hafter⟩
    exact .inl (congrArg Attempt.branch through').symm
  | some error =>
    refine .inr ⟨barren_of_failed problem problem.checkAdjacency (by rw [refused]; rfl), ?_⟩
    cases failed : (problem.applyWith .success move branch).branch.error with
    | some other => exact barren_of_failed problem .success (by rw [failed]; rfl)
    | none =>
      -- Only the check can have refused the move, so it has misplaced a symbol.
      have through := applyWith_eq_success_of_alive .success failed
      obtain ⟨rule, hrule, position, hposition, rfl, whole, _⟩ :=
        rewrites_of_applyWith judges_success clean going proposed through
      obtain ⟨trees, cursor, rewrites, _, met, hafter⟩ :=
        (applyWith_eq_success judges_success clean alive).1 through
      refine barren_of_misplaced starts ?_
      rw [hafter]
      refine misplaced_of_rewrites (starts rule hrule) hposition (fun accepts => (whole accepts).1) rewrites
        (stands_moved going) fun placed => ?_
      have through' := (applyWith_eq_success judges clean alive).2
        ⟨trees, cursor, rewrites, fun _ => placed.seated, met, rfl⟩
      have alive' : (problem.apply (.ofItem (problem.table.rules.itemAt rule position)) branch).branch =
          problem.complete _ := congrArg Attempt.branch through'
      rw [alive', ← hafter, failed] at refused
      cases refused

/-- The check only prunes branches that are not accepted. -/
theorem prunes_unchecked (starts : ∀ rule ∈ problem.table.rules.toList, rule.isTerminating = true →
      rule.lhs = problem.table.start) (maxSteps : Option Nat) :
    Machine.Prunes problem.machine problem.uncheckedMachine maxSteps
      fun branch => branch.stack.popped = [] where
  start := rfl
  isOver := rfl
  interrupt := rfl
  result := rfl
  holds := clean_start problem
  play := by
    intro branch move clean _ _
    exact clean_applyWith problem judges_success move clean
  stuck := by
    intro branch clean going
    exact ⟨isAccepted_of_nextMoves_eq_nil clean going, isAccepted_of_nextMoves_eq_nil clean going⟩
  agree := by
    intro branch clean going
    refine .inr ⟨rfl, fun move proposed => ?_⟩
    exact play_unchecked starts clean going proposed

end Problem

/-- Whatever the rules, if only those for the start symbol end with an
end-marker, and whatever the stream and the options: wherever the search ends
with the check of adjacency and without it, it hands out the same accepted
results, in the same order and as often.  With a bound on the moves, or without
a cycle of one-symbol rules, it does end. -/
theorem adjacency_check_lossless {rules : List (Rule S)} {table : DecisionTable S}
    (built : DecisionTable.build rules = .ok table)
    (ends : ∀ rule ∈ rules, rule.isTerminating = true → rule.lhs = table.start)
    (stream : TokenStream S) (options : SearchOptions) :
    (∀ results final others final',
      Search.Collects (Problem.machine ⟨table, stream⟩) options .initial results final →
      Search.Collects (Problem.uncheckedMachine ⟨table, stream⟩) options .initial others final' →
      acceptedOf results = acceptedOf others) ∧
    (options.maxSteps.isSome = true ∨ Acyclic rules →
      ∃ results final others final',
        Search.Collects (Problem.machine ⟨table, stream⟩) options .initial results final ∧
        Search.Collects (Problem.uncheckedMachine ⟨table, stream⟩) options .initial others final') := by
  have lawful := Problem.machine_lawful (⟨table, stream⟩ : Problem S)
  have lawful' := Problem.machineWith_lawful (⟨table, stream⟩ : Problem S) Problem.judges_success
  constructor
  · intro results final others final' h h'
    have starts : ∀ rule ∈ table.rules.toList, rule.isTerminating = true → rule.lhs = table.start :=
      fun rule hrule => ends rule ((DecisionTable.mem_rules_of_build built).1 hrule)
    have prunes : Machine.Prunes (Problem.machine ⟨table, stream⟩) (Problem.uncheckedMachine ⟨table, stream⟩)
        options.maxSteps fun branch => branch.stack.popped = [] :=
      Problem.prunes_unchecked starts options.maxSteps
    exact Search.accepted_of_collects prunes lawful lawful' (fun _ clean => clean) (fun _ clean => clean)
      h h'
  · intro finite
    have finite' := finite.imp_right (DecisionTable.acyclic_of_build built)
    obtain ⟨results, final, collects⟩ := Search.exists_collects lawful options
      (Problem.exists_enumerateWith ⟨table, stream⟩ (Problem.judges_checkAdjacency _) finite')
    obtain ⟨others, final', collects'⟩ := Search.exists_collects lawful' options
      (Problem.exists_enumerateWith ⟨table, stream⟩ Problem.judges_success finite')
    exact ⟨results, final, others, final', collects, collects'⟩

/-! ## §4. A node that may not sit where it is. -/

/-- The rules `S => A B <eos>`, `S => C c <eos>`, `A => a`, `B => b` and `C => b`:
a `C` has its place at the bottom only. -/
def bottomRules : List (Rule Symbol) :=
  [⟨0, .nonTerminal "S", [.nonTerminal "A", .nonTerminal "B", .endMarker]⟩,
    ⟨1, .nonTerminal "S", [.nonTerminal "C", .terminal "c", .endMarker]⟩,
    ⟨2, .nonTerminal "A", [.terminal "a"]⟩, ⟨3, .nonTerminal "B", [.terminal "b"]⟩,
    ⟨4, .nonTerminal "C", [.terminal "b"]⟩]

/-- The table of these rules. -/
def bottomTable : DecisionTable Symbol :=
  .ofRuleSet ⟨bottomRules, by decide, by decide, by decide⟩

/-- The tokens `a b <eos>`. -/
def bottomStream : TokenStream Symbol :=
  .ofKinds [.terminal "a", .terminal "b", .endMarker]

/-- Over `a b <eos>` the check refuses a `C` above an `A`.  Without it that branch
shifts the end-marker before it fails; the one accepted result is the same. -/
theorem adjacency_check_lossless_bottom :
    ∃ results final others final',
      Search.Collects (Problem.machine ⟨bottomTable, bottomStream⟩) {} .initial results final ∧
      Search.Collects (Problem.uncheckedMachine ⟨bottomTable, bottomStream⟩) {} .initial others final' ∧
      results.map (fun result => (result.isAccepted, result.forest.length)) = [(true, 1), (false, 2)] ∧
      others.map (fun result => (result.isAccepted, result.forest.length)) = [(true, 1), (false, 3)] ∧
      acceptedOf results = acceptedOf others := by
  have checked : ((Search.collect? (Problem.machine ⟨bottomTable, bottomStream⟩) {} 12 .initial).map
      fun collected => collected.1.map fun result => (result.isAccepted, result.forest.length)) =
        some [(true, 1), (false, 2)] := by
    decide +kernel
  have unchecked : ((Search.collect? (Problem.uncheckedMachine ⟨bottomTable, bottomStream⟩) {} 12
      .initial).map fun collected => collected.1.map fun result =>
        (result.isAccepted, result.forest.length)) = some [(true, 1), (false, 3)] := by
    decide +kernel
  obtain ⟨⟨results, final⟩, hresults, shown⟩ := Option.map_eq_some_iff.1 checked
  obtain ⟨⟨others, final'⟩, hothers, shown'⟩ := Option.map_eq_some_iff.1 unchecked
  have built : DecisionTable.build bottomRules = .ok bottomTable := bottomTable.build_rules
  obtain ⟨agree, _⟩ := adjacency_check_lossless built (by decide) bottomStream {}
  exact ⟨results, final, others, final', ⟨12, hresults⟩, ⟨12, hothers⟩, shown, shown',
    agree results final others final' ⟨12, hresults⟩ ⟨12, hothers⟩⟩

end ShiftReduce
