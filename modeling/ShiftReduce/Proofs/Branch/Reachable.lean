/-
  ShiftReduce.Proofs.Branch.Reachable
  ────────────────────────────────
  **EVERY BRANCH THAT OPERATIONS LEAD TO.**

  A search only makes moves that are proposed, and only in branches that are
  not over.  The operations allow more: a move may follow any item of the
  table, with any hint, in a branch that is done, and it may be refused at any
  point of it.  Each of them leaves the stack, the cursor and the end of the
  branch as they were, or rewrites the stack by one item, or completes the
  branch.

  Main statements: `leaves_step` (what a step leaves behind, also if it is
  refused) and `Invariant.of_reachable`: what holds at the beginning, and is kept
  by rewriting and by completion, holds of every such branch.
-/
import ShiftReduce.Proofs.Branch.Machine
import ShiftReduce.Proofs.Branch.Refusals

namespace ShiftReduce

variable {S : Type} [DecidableEq S] [GrammarSymbol S]

/-! ## §1. Operations in any order. -/

/-- The move follows an item of the table, whether or not it is proposed. -/
def Problem.Knows (problem : Problem S) (move : Move S) : Prop :=
  ∃ symbol ∈ problem.table.symbols, move.item ∈ problem.table.items symbol

instance (problem : Problem S) (move : Move S) : Decidable (problem.Knows move) :=
  inferInstanceAs (Decidable (∃ symbol ∈ problem.table.symbols, move.item ∈ problem.table.items symbol))

theorem Problem.knows_of_mem_items {problem : Problem S} {move : Move S} {symbol : S}
    (h : move.item ∈ problem.table.items symbol) : problem.Knows move :=
  ⟨symbol, DecisionTable.mem_symbols_of_mem_items h, h⟩

/-- The branches that looking for moves, interrupting and making moves of the
table lead to, in any order and whether or not they go through. -/
inductive Problem.Reachable (problem : Problem S) : Branch S → Prop where
  | start : Reachable problem problem.start
  | looked {branch : Branch S} (reachable : Reachable problem branch) :
      Reachable problem (problem.nextMoves branch).2
  | interrupted {branch : Branch S} (reachable : Reachable problem branch) :
      Reachable problem branch.interrupt
  | moved {branch : Branch S} {move : Move S} (reachable : Reachable problem branch)
      (known : problem.Knows move) : Reachable problem (problem.apply move branch).branch

namespace Problem.Reachable

variable {problem : Problem S} {branch : Branch S}

/-- Moves of the table lead from one such branch to another. -/
theorem resume (reachable : problem.Reachable branch) {moves : List (Move S)}
    (known : ∀ move ∈ moves, problem.Knows move) :
    problem.Reachable (problem.machine.resume branch moves) := by
  -- By induction on the moves: a replay stops with the branch that has refused one.
  induction moves generalizing branch with
  | nil => exact reachable
  | cons move rest ih =>
    have moved := reachable.moved (known move (by simp))
    rw [Machine.resume]
    split
    · next stopped play =>
      have same : (problem.apply move branch).branch = stopped := congrArg Prod.fst play
      rw [← same]
      exact moved
    · next after play =>
      have same : (problem.apply move branch).branch = after := congrArg Prod.fst play
      rw [← same]
      exact ih moved fun move mem => known move (List.mem_cons_of_mem _ mem)

theorem replay {history : List (Move S)} (known : ∀ move ∈ history, problem.Knows move) :
    problem.Reachable (problem.machine.replay history) :=
  Reachable.start.resume known

end Problem.Reachable

/-! ## §2. Operations that only look. -/

/-- What a branch has reached: its stack, its cursor, and whether it is done. -/
def Branch.standing (branch : Branch S) : UndoStack (Token S) × Nat × Bool :=
  (branch.stack, branch.cursor, branch.done)

omit [DecidableEq S] in
theorem Branch.standing_eq_iff {before after : Branch S} :
    after.standing = before.standing ↔
      after.stack = before.stack ∧ after.cursor = before.cursor ∧ after.done = before.done := by
  rw [standing, standing, Prod.mk.injEq, Prod.mk.injEq]

namespace Problem

variable {problem : Problem S} {branch before after : Branch S} {item : Item S}

omit [DecidableEq S] in
theorem standing_interrupt (branch : Branch S) : branch.interrupt.standing = branch.standing := by
  unfold Branch.interrupt
  split
  · rfl
  · rfl

theorem standing_nextMoves (problem : Problem S) (clean : branch.stack.popped = []) :
    (problem.nextMoves branch).2.standing = branch.standing := by
  cases going : branch.isOver with
  | true => rw [nextMoves_of_isOver going]
  | false =>
    obtain ⟨considered, hnext⟩ := nextMoves_of_going problem clean going
    rw [hnext]
    split
    · rfl
    · rfl

/-! ## §3. What following an item leaves behind. -/

/-- Following an item leaves the branch where it stood, or with its stack
rewritten; only an accepting item ends the branch, once no token is left. -/
inductive Leaves (problem : Problem S) (item : Item S) (before after : Branch S) : Prop where
  | same (standing : after.standing = before.standing)
  | rewritten (clean : after.stack.popped = [])
      (rewrites : problem.Rewrites item before.stack.items before.cursor after.stack.items after.cursor)
      (done : after.done = before.done ∨ item.action = .accept ∧ after.done = true)

/-- It speaks of the stack, of the cursor and of the end of the branches only. -/
theorem Leaves.congr {before' after' : Branch S} (leaves : problem.Leaves item before after)
    (first : before'.standing = before.standing) (last : after'.standing = after.standing) :
    problem.Leaves item before' after' := by
  cases leaves with
  | same standing => exact .same (last.trans (standing.trans first.symm))
  | rewritten clean rewrites done =>
    obtain ⟨stack, cursor, ending⟩ := Branch.standing_eq_iff.1 first
    obtain ⟨stack', cursor', ending'⟩ := Branch.standing_eq_iff.1 last
    refine .rewritten ?_ ?_ ?_
    · rw [stack', clean]
    · rw [stack, cursor, stack', cursor']
      exact rewrites
    · rw [ending, ending']
      exact done

/-- A branch that is accepted stays accepted. -/
theorem Leaves.done (leaves : problem.Leaves item before after) (accepted : before.done = true) :
    after.done = true := by
  cases leaves with
  | same standing => exact (Branch.standing_eq_iff.1 standing).2.2.trans accepted
  | rewritten _ _ done =>
    rcases done with same | ⟨_, done⟩
    · exact same.trans accepted
    · exact done

/-- A step may be refused before its item has been followed, or after it. -/
theorem leaves_step (move : Move S) (clean : branch.stack.popped = []) :
    problem.Leaves move.item branch (problem.step move branch).branch := by
  have ended : ∀ done : Bool, (done || move.item.isAccept) = done ∨
      move.item.action = .accept ∧ (done || move.item.isAccept) = true := by
    intro done
    cases accepts : move.item.isAccept with
    | false => exact .inl (Bool.or_false done)
    | true => exact .inr ⟨of_decide_eq_true accepts, Bool.or_true done⟩
  -- A step that goes through has rewritten the stack.  A refused one has put back what it has
  -- popped, unless it is refused for what it has led to.
  cases refused : (problem.step move branch).error with
  | none =>
    obtain ⟨trees, cursor, rewrites, _, _, hafter⟩ :=
      (stepWith_eq_success (judges_checkAdjacency problem) clean).1
        (Attempt.eq_success_of_error refused)
    have hafter : (problem.step move branch).branch = branch.moved move trees cursor := hafter
    rw [hafter]
    refine .rewritten (by rw [Branch.stack_moved]) ?_ ?_
    · rw [Branch.stack_moved, Branch.cursor_moved]
      exact rewrites
    · rw [Branch.done_moved]
      exact ended branch.done
  | some error =>
    obtain ⟨after, refuses, hstep⟩ := refuses_step clean refused
    rw [hstep]
    cases refuses with
    | exhausted => exact .same rfl
    | mismatched => exact .same rfl
    | unconsumed => exact .same rfl
    | unseated action consumed items kinds =>
      refine .rewritten rfl ?_ (.inl rfl)
      rw [items]
      exact .contract action kinds consumed
    | unannounced rewrites => exact .rewritten rfl rewrites (ended branch.done)

/-! ## §4. An induction over all branches. -/

/-- Completion does nothing, or it ends a branch at the end of the stream. -/
theorem standing_complete (problem : Problem S) (branch : Branch S) :
    (problem.complete branch).standing = branch.standing ∨
      branch.done = false ∧ problem.IsComplete branch ∧
        (problem.complete branch).standing = (branch.stack, problem.stream.size, true) := by
  by_cases complete : problem.IsComplete branch
  · cases going : branch.isOver with
    | true => exact .inl (by rw [complete_of_isOver going])
    | false =>
      refine .inr ⟨(Branch.isOver_eq_false_iff.1 going).1, complete, ?_⟩
      rw [complete_of_isComplete going complete]
      rfl
  · exact .inl (by rw [complete_of_not_isComplete complete])

/-- What holds of the empty stack, and of the first token on it, and is kept when
a stack is rewritten by an item of the table and when a branch is completed.
It speaks of the trees on the stack, top first, of the cursor, and of whether
the branch is done. -/
structure Invariant (problem : Problem S) (holds : List (Token S) → Nat → Bool → Prop) : Prop where
  blank : holds [] 0 false
  first : ∀ token, problem.stream.get? 0 = some token → holds [token] 1 false
  rewrite : ∀ {symbol : S} {item : Item S} {trees trees' : List (Token S)} {cursor cursor' : Nat}
    {done done' : Bool}, item ∈ problem.table.items symbol → holds trees cursor done →
      problem.Rewrites item trees cursor trees' cursor' →
        (done' = done ∨ item.action = .accept ∧ done' = true) → holds trees' cursor' done'
  complete : ∀ {trees : List (Token S)} {cursor : Nat}, holds trees cursor false →
    problem.table.acceptsExplicitly = false → trees.map Token.kind = [problem.table.start] →
      problem.SettledAt cursor → holds trees problem.stream.size true

/-- No pop is left to undo, and the property holds. -/
def Satisfies (holds : List (Token S) → Nat → Bool → Prop) (branch : Branch S) : Prop :=
  branch.stack.popped = [] ∧ holds branch.stack.items branch.cursor branch.done

variable {holds : List (Token S) → Nat → Bool → Prop}

omit [DecidableEq S] in
theorem Satisfies.congr (h : Satisfies holds before) (same : after.standing = before.standing) :
    Satisfies holds after := by
  obtain ⟨stack, cursor, done⟩ := Branch.standing_eq_iff.1 same
  unfold Satisfies
  rw [stack, cursor, done]
  exact h

namespace Invariant

theorem satisfies_complete (invariant : problem.Invariant holds) (h : Satisfies holds branch) :
    Satisfies holds (problem.complete branch) := by
  rcases standing_complete problem branch with same | ⟨going, ⟨implicit, kinds, settled⟩, ended⟩
  · exact h.congr same
  · obtain ⟨clean, here⟩ := h
    rw [going] at here
    have ended' : Satisfies holds { branch with cursor := problem.stream.size, done := true } :=
      ⟨clean, invariant.complete here implicit kinds (isSettled_iff.1 settled)⟩
    exact ended'.congr ended

theorem satisfies_start (invariant : problem.Invariant holds) : Satisfies holds problem.start := by
  unfold start shift
  dsimp only
  cases next : problem.stream.get? (Branch.blank.enter .shift : Branch S).cursor with
  | none => exact ⟨rfl, invariant.blank⟩
  | some token => exact invariant.satisfies_complete ⟨rfl, invariant.first token next⟩

/-- A move of the table keeps the invariant, also if it is refused on the way. -/
theorem satisfies_apply (invariant : problem.Invariant holds) {move : Move S}
    (known : problem.Knows move) (h : Satisfies holds branch) :
    Satisfies holds (problem.apply move branch).branch := by
  cases alive : branch.error with
  | some error =>
    rw [apply_of_failed problem move alive]
    exact h
  | none =>
    have stepped : Satisfies holds (problem.step move (counted move branch)).branch := by
      have leaves : problem.Leaves move.item (counted move branch)
          (problem.step move (counted move branch)).branch := leaves_step move h.1
      cases leaves with
      | same standing => exact h.congr standing
      | rewritten clean rewrites done =>
        obtain ⟨_, _, known⟩ := known
        exact ⟨clean, invariant.rewrite known h.2 rewrites done⟩
    rw [apply_eq problem move alive]
    split
    · exact invariant.satisfies_complete stepped
    · exact stepped.congr rfl

/-- An invariant holds of every branch that operations lead to. -/
theorem satisfies_of_reachable (invariant : problem.Invariant holds)
    (reachable : problem.Reachable branch) : Satisfies holds branch := by
  -- By induction on the operations: looking and interrupting leave the branch where it stood.
  induction reachable with
  | start => exact invariant.satisfies_start
  | looked _ ih => exact ih.congr (standing_nextMoves problem ih.1)
  | interrupted _ ih => exact ih.congr (standing_interrupt _)
  | moved _ known ih => exact invariant.satisfies_apply known ih

theorem of_reachable (invariant : problem.Invariant holds) (reachable : problem.Reachable branch) :
    holds branch.stack.items branch.cursor branch.done :=
  (invariant.satisfies_of_reachable reachable).2

end Invariant

/-- No operation leaves a pop to undo behind. -/
theorem Reachable.clean (reachable : problem.Reachable branch) : branch.stack.popped = [] := by
  have trivially : problem.Invariant fun _ _ _ => True :=
    ⟨trivial, fun _ _ => trivial, fun _ _ _ _ => trivial, fun _ _ _ _ => trivial⟩
  exact (trivially.satisfies_of_reachable reachable).1

/-- What is proposed are moves of the table. -/
theorem Reachable.knows {move : Move S} (reachable : problem.Reachable branch)
    (proposed : move ∈ (problem.nextMoves branch).1) : problem.Knows move := by
  obtain ⟨_, _, mem, rfl⟩ := exists_item_of_mem_nextMoves reachable.clean proposed
  exact knows_of_mem_items mem

end Problem

end ShiftReduce
