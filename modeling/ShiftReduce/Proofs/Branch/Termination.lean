/-
  ShiftReduce.Proofs.Branch.Termination
  ────────────────────────────────
  **BRANCHES END.**

  A shift uses up a token, but makes the stack deeper; a reduction by several
  symbols makes it less deep; a reduction by one symbol changes neither, but
  makes the top of the stack lower in the order of one-symbol rules.  The rank
  weighs the three against each other.

  Main statements: `rank_rewrites` (every move decreases the rank),
  `length_le_of_run` (how many moves a branch makes) and
  `exists_enumerate_of_acyclic`: without a cycle of one-symbol rules the
  enumeration of all branches is finite.
-/
import ShiftReduce.Proofs.Branch.Machine
import ShiftReduce.Proofs.Grammar.Chains
import ShiftReduce.Proofs.Search.Enumeration

namespace ShiftReduce

variable {S : Type} [DecidableEq S] [GrammarSymbol S]

namespace Problem

/-! ## §1. The rank of a stack. -/

/-- The height of the top of the stack. -/
noncomputable def topHeight (problem : Problem S) (trees : List (Token S)) : Nat :=
  (trees.head?.map fun top => height problem.table.rules.toList top.kind).getD 0

/-- Two for each token left and one for each tree, and below that the height of
the top of the stack. -/
noncomputable def rank (problem : Problem S) (trees : List (Token S)) (cursor : Nat) : Nat :=
  (2 * (problem.stream.size - cursor) + trees.length) * (problem.table.rules.size + 1) +
    problem.topHeight trees

variable {problem : Problem S}

theorem topHeight_le (problem : Problem S) (trees : List (Token S)) :
    problem.topHeight trees ≤ problem.table.rules.size := by
  cases trees with
  | nil => exact Nat.zero_le _
  | cons top rest => exact height_le _ _

/-- The height weighs less than one unit of what comes before it. -/
theorem rank_lt_of_weight {weight weight' base height height' : Nat} (less : weight' < weight)
    (bounded : height' ≤ base) : weight' * (base + 1) + height' < weight * (base + 1) + height := by
  have step : (weight' + 1) * (base + 1) ≤ weight * (base + 1) := Nat.mul_le_mul_right _ less
  rw [Nat.add_mul, Nat.one_mul] at step
  omega

/-- Every move decreases the rank. -/
theorem rank_rewrites (acyclic : Acyclic problem.table.rules.toList) {rule : Rule S} {position : Nat}
    {trees trees' : List (Token S)} {cursor cursor' : Nat} (hrule : rule ∈ problem.table.rules.toList)
    (h : problem.Rewrites (problem.table.rules.itemAt rule position) trees cursor trees' cursor') :
    problem.rank trees' cursor' < problem.rank trees cursor := by
  cases h with
  | @shift _ _ token _ next =>
    have within : cursor < problem.stream.size := by
      refine Nat.lt_of_not_le fun beyond => ?_
      rw [TokenStream.get?_eq_none_iff.2 beyond] at next
      cases next
    refine rank_lt_of_weight ?_ (topHeight_le problem _)
    rw [List.length_cons]
    omega
  | @contract children rest _ _ kinds _ =>
    have kinds : children.map Token.kind = rule.rhs := kinds
    match children, kinds with
    | [], kinds => exact absurd kinds.symm (problem.table.rules.rhs_ne_nil rule hrule)
    | [child], kinds =>
      -- Neither the cursor nor the depth changes, but the top is replaced by a lower one.
      have link : Link problem.table.rules.toList rule.lhs child.kind := ⟨rule, hrule, rfl, kinds.symm⟩
      exact Nat.add_lt_add_left (height_lt acyclic link) _
    | first :: second :: others, _ =>
      refine rank_lt_of_weight ?_ (topHeight_le problem _)
      rw [List.length_append, List.length_reverse, List.length_cons, List.length_cons,
        List.length_cons]
      omega

variable {check : Branch S → Attempt S} {allowed : List (Token S) → Prop}

/-- A branch that goes on after a move, made under any check, has a lower rank than before. -/
theorem rank_applyWith (acyclic : Acyclic problem.table.rules.toList) (judges : Judges check allowed)
    {branch after : Branch S} {rule : Rule S} {position : Nat} (clean : branch.stack.popped = [])
    (before : branch.isOver = false) (hrule : rule ∈ problem.table.rules.toList)
    (through : problem.applyWith check (.ofItem (problem.table.rules.itemAt rule position)) branch =
      .success after) (going : after.isOver = false) :
    problem.rank after.stack.items after.cursor < problem.rank branch.stack.items branch.cursor := by
  obtain ⟨trees, cursor, rewrites, _, _, rfl⟩ :=
    (applyWith_eq_success judges clean (Branch.isOver_eq_false_iff.1 before).2).1 through
  have decreases := rank_rewrites acyclic hrule rewrites
  let move := Move.ofItem (problem.table.rules.itemAt rule position)
  have stands : ((counted move branch).moved move trees cursor).Stands trees cursor move.item.isAccept :=
    stands_moved before
  have unfinished : (problem.complete ((counted move branch).moved move trees cursor)).done = false :=
    (Branch.isOver_eq_false_iff.1 going).1
  cases accepts : move.item.isAccept with
  | true =>
    rw [accepts] at stands
    rw [(stands_complete_of_done stands).done] at unfinished
    cases unfinished
  | false =>
    rw [accepts] at stands
    rcases stands_complete stands with stands' | ⟨stands', _⟩
    · rw [stands'.stack, stands'.cursor]
      exact decreases
    · rw [stands'.done] at unfinished
      cases unfinished

/-- The rank of a branch, whatever the number of moves made. -/
noncomputable def branchRank (problem : Problem S) (_steps : Nat) (branch : Branch S) : Nat :=
  problem.rank branch.stack.items branch.cursor

/-- Every move that is proposed follows an item of the rules. -/
def FollowsRules (problem : Problem S) (moves : Branch S → List (Move S) × Branch S) : Prop :=
  ∀ branch : Branch S, branch.stack.popped = [] → ∀ move ∈ (moves branch).1,
    ∃ rule ∈ problem.table.rules.toList, ∃ position,
      move = .ofItem (problem.table.rules.itemAt rule position)

theorem followsRules_nextMoves (problem : Problem S) : problem.FollowsRules problem.nextMoves := by
  intro branch clean move proposed
  obtain ⟨_, _, _, rule, hrule, position, _, same, _⟩ := of_mem_nextMoves clean proposed
  exact ⟨rule, hrule, position, same⟩

/-- However moves are predicted and whatever is checked after a reduction, the
rank gets lower. -/
theorem lowersRank_of_followsRules (acyclic : Acyclic problem.table.rules.toList)
    (judges : Judges check allowed) {moves : Branch S → List (Move S) × Branch S}
    (follows : problem.FollowsRules moves) (maxSteps : Option Nat) :
    ({ problem.machineWith check with moves } : Machine S (Branch S) (Move S)).LowersRank maxSteps
      (fun branch => branch.stack.popped = []) problem.branchRank := by
  intro steps branch move clean going proposed continues
  obtain ⟨rule, hrule, position, rfl⟩ := follows branch clean move proposed
  have before : branch.isOver = false := (Machine.ending?_eq_none_iff.1 going).1
  have after := (Machine.ending?_eq_none_iff.1 continues).1
  have through := applyWith_eq_success_of_alive check (Branch.isOver_eq_false_iff.1 after).2
  exact rank_applyWith acyclic judges clean before hrule through after

/-! ## §2. Short branches, and finitely many of them. -/

/-- A branch that is not over at its beginning has a token on its stack, whose
place in the stream counts twice. -/
theorem rank_start (going : problem.start.isOver = false) :
    problem.branchRank 0 problem.start < 2 * problem.stream.size * (problem.table.rules.size + 1) := by
  obtain ⟨unfinished, alive⟩ := Branch.isOver_eq_false_iff.1 going
  rcases start_cases problem with ⟨token, next, moved, hstart, stands⟩ | ⟨_, failed⟩
  · have within : 0 < problem.stream.size := by
      refine Nat.lt_of_not_le fun beyond => ?_
      rw [TokenStream.get?_eq_none_iff.2 beyond] at next
      cases next
    rw [hstart] at unfinished ⊢
    rcases stands_complete stands with going | ⟨accepted, _⟩
    · rw [branchRank, going.stack, going.cursor, ← Nat.add_zero (2 * _ * _)]
      refine rank_lt_of_weight ?_ (topHeight_le problem _)
      rw [List.length_singleton]
      omega
    · rw [accepted.done] at unfinished
      cases unfinished
  · rw [alive] at failed
    cases failed

/-- Without a cycle of one-symbol rules a branch makes at most two moves for each
token and each rule, and two more for each token. -/
theorem length_le_of_run (acyclic : Acyclic problem.table.rules.toList) {maxSteps : Option Nat}
    {history : List (Move S)} {final : Branch S}
    (run : problem.machine.Run maxSteps 0 problem.start history final) :
    history.length ≤ 2 * problem.stream.size * (problem.table.rules.size + 1) := by
  cases going : problem.start.isOver with
  | true =>
    rw [run.eq_nil_of_ending (Machine.ending?_of_isOver going)]
    exact Nat.zero_le _
  | false =>
    have lowers := lowersRank_of_followsRules acyclic (judges_checkAdjacency problem)
      (followsRules_nextMoves problem) maxSteps
    have short := run.length_le (machine_lawful problem) lowers (clean_start problem)
    have less := rank_start going
    omega

/-- With a bound on the moves, or without a cycle of one-symbol rules, there are
finitely many branches, and each of them is finite, however moves are predicted
and whatever is checked after a reduction. -/
theorem exists_enumerate_of_followsRules (problem : Problem S) (judges : Judges check allowed)
    {moves : Branch S → List (Move S) × Branch S} (follows : problem.FollowsRules moves)
    (lawful : ({ problem.machineWith check with moves } : Machine S (Branch S) (Move S)).Lawful
      fun branch => branch.stack.popped = []) {maxSteps : Option Nat}
    (finite : maxSteps.isSome = true ∨ Acyclic problem.table.rules.toList) :
    ∃ fuel harvest, ({ problem.machineWith check with moves } : Machine S (Branch S) (Move S)).enumerate?
      maxSteps fuel 0 problem.start = some harvest := by
  rcases finite with bounded | acyclic
  · obtain ⟨bound, rfl⟩ := Option.isSome_iff_exists.1 bounded
    exact Machine.exists_enumerate_of_bound lawful bound
  · exact ⟨_, Machine.exists_enumerate lawful (lowersRank_of_followsRules acyclic judges follows maxSteps)
      (clean_start problem) (Nat.lt_succ_self _)⟩

theorem exists_enumerateWith (problem : Problem S) (judges : Judges check allowed)
    {maxSteps : Option Nat} (finite : maxSteps.isSome = true ∨ Acyclic problem.table.rules.toList) :
    ∃ fuel harvest, (problem.machineWith check).enumerate? maxSteps fuel 0 problem.start = some harvest :=
  exists_enumerate_of_followsRules problem judges (followsRules_nextMoves problem)
    (machineWith_lawful problem judges) finite

theorem exists_enumerate_of_acyclic (problem : Problem S)
    (acyclic : Acyclic problem.table.rules.toList) (maxSteps : Option Nat) :
    ∃ fuel harvest, problem.machine.enumerate? maxSteps fuel 0 problem.start = some harvest :=
  exists_enumerateWith problem (judges_checkAdjacency problem) (.inr acyclic)

end Problem

end ShiftReduce
