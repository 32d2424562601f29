/-
  ShiftReduce.Proofs.Branch.Machine
  ────────────────────────────────
  **THE BRANCHES OF A PROBLEM AS A LAWFUL MACHINE.**

  What the search relies on holds of branches: looking for moves leaves no pop
  to undo and changes only notes that every move overwrites.  A run is
  therefore a sequence of moves that go through, except perhaps for the last.

  Main statements: `machine_lawful`, `Run.induct`, and `accepted_of_ending` (a
  result without a failure is that of a branch which is done).
-/
import ShiftReduce.Proofs.Branch.Prediction
import ShiftReduce.Proofs.Branch.Transition
import ShiftReduce.Proofs.Search.Run

namespace ShiftReduce

variable {S : Type} [DecidableEq S] [GrammarSymbol S]

namespace Problem

variable {problem : Problem S} {branch : Branch S} {check : Branch S → Attempt S}
  {allowed : List (Token S) → Prop}

/-! ## §1. The laws. -/

/-- The branches of a problem, with another check of what a reduction leads to. -/
def machineWith (problem : Problem S) (check : Branch S → Attempt S) :
    Machine S (Branch S) (Move S) :=
  { problem.machine with
    play := fun branch move =>
      let attempt := problem.applyWith check move branch
      (attempt.branch, attempt.error.isSome) }

/-- What is checked after a reduction is whether the node may sit there. -/
theorem machineWith_checkAdjacency (problem : Problem S) :
    problem.machineWith problem.checkAdjacency = problem.machine := rfl

/-- A step begins by noting what it does, whatever was noted before. -/
theorem stepWith_enter (problem : Problem S) (check : Branch S → Attempt S) (move : Move S)
    (branch : Branch S) (phase : Phase) :
    problem.stepWith check move (branch.enter phase) = problem.stepWith check move branch := by
  unfold stepWith followWith
  cases move.item.action with
  | shift => rfl
  | reduce => rfl
  | accept => rfl

/-- A move overwrites what has been noted to find it: the items considered at
once, and the phase with its first operation. -/
theorem applyWith_noted (check : Branch S → Attempt S) (move : Move S) (considered : List (Item S))
    (alive : branch.error = none) :
    problem.applyWith check move ((branch.enter .predict).consider considered) =
      problem.applyWith check move branch := by
  have same : problem.stepWith check move
      (counted move ((branch.enter .predict).consider considered)) =
        problem.stepWith check move (counted move branch) :=
    stepWith_enter problem check move (counted move branch) .predict
  have alive' : ((branch.enter .predict).consider considered).error = none := alive
  rw [applyWith_eq problem check move alive, applyWith_eq problem check move alive', same]

/-- Looking for the moves does not change what they do. -/
theorem applyWith_nextMoves (check : Branch S → Attempt S) (move : Move S)
    (clean : branch.stack.popped = []) (h : (problem.nextMoves branch).1 ≠ []) :
    problem.applyWith check move (problem.nextMoves branch).2 =
      problem.applyWith check move branch := by
  obtain ⟨⟨considered, hlooked⟩, _⟩ := nextMoves_of_ne_nil clean h
  rw [hlooked]
  cases herror : branch.error with
  | some error =>
    have going : problem.nextMoves branch = ([], branch) :=
      nextMoves_of_isOver (by simp [Branch.isOver, herror])
    rw [going] at h
    exact absurd rfl h
  | none => exact applyWith_noted check move considered herror

theorem clean_start (problem : Problem S) : problem.start.stack.popped = [] := by
  unfold start shift
  dsimp only
  split
  · rw [stack_complete]
    split
    · rfl
    · rfl
  · show (Attempt.branch _).stack.popped = []
    split
    · rfl
    · rfl

/-- The branches of a problem are what the search takes them for, whatever is
checked after a reduction. -/
theorem machineWith_lawful (problem : Problem S) (judges : Judges check allowed) :
    (problem.machineWith check).Lawful fun branch => branch.stack.popped = [] where
  start := clean_start problem
  play := by
    intro branch move clean
    exact clean_applyWith problem judges move clean
  looked := by
    intro branch move clean some
    have same := applyWith_nextMoves check move clean some
    exact congrArg (fun attempt => (attempt.branch, attempt.error.isSome)) same
  refused := by
    intro branch move refused
    have failed : (problem.applyWith check move branch).error.isSome = true := refused
    obtain ⟨error, herror⟩ := Option.isSome_iff_exists.1 failed
    exact Branch.isOver_of_failed (error_of_applyWith herror)

theorem machine_lawful (problem : Problem S) :
    problem.machine.Lawful fun branch => branch.stack.popped = [] := by
  rw [← machineWith_checkAdjacency]
  exact machineWith_lawful problem (judges_checkAdjacency problem)

end Problem

/-! ## §2. Moves that go through. -/

omit [DecidableEq S] in
theorem Branch.isOver_eq_false_iff {branch : Branch S} :
    branch.isOver = false ↔ branch.done = false ∧ branch.error = none := by
  rw [isOver, Bool.or_eq_false_iff, Option.isSome_eq_false_iff, Option.isNone_iff_eq_none]

/-- The branch has not failed, has these trees on its stack and no pop to undo,
stands at the cursor, and is done or not. -/
structure Branch.Stands (branch : Branch S) (trees : List (Token S)) (cursor : Nat) (done : Bool) :
    Prop where
  stack : branch.stack = ⟨trees, []⟩
  cursor : branch.cursor = cursor
  done : branch.done = done
  error : branch.error = none

namespace Problem

variable {problem : Problem S} {branch : Branch S} {check : Branch S → Attempt S}
  {allowed : List (Token S) → Prop}

/-- The move is proposed by a branch that is not over, and goes through. -/
structure Advances (problem : Problem S) (before : Branch S) (move : Move S) (after : Branch S) :
    Prop where
  clean : before.stack.popped = []
  going : before.isOver = false
  proposed : move ∈ (problem.nextMoves before).1
  through : problem.apply move before = .success after

omit [DecidableEq S] in
theorem stands_moved {move : Move S} {trees : List (Token S)} {cursor : Nat}
    (going : branch.isOver = false) :
    ((counted move branch).moved move trees cursor).Stands trees cursor move.item.isAccept := by
  obtain ⟨done, error⟩ := Branch.isOver_eq_false_iff.1 going
  refine ⟨Branch.stack_moved _ _ _ _, Branch.cursor_moved _ _ _ _, ?_, ?_⟩
  · rw [Branch.done_moved]
    show (branch.done || _) = _
    rw [done, Bool.false_or]
  · rw [Branch.error_moved]
    exact error

/-- A move that goes through, under any check, follows an item of the top of the
stack, which covers the whole stack with no token left if it is accepting. -/
theorem rewrites_of_applyWith {after : Branch S} {move : Move S} (judges : Judges check allowed)
    (clean : branch.stack.popped = []) (going : branch.isOver = false)
    (proposed : move ∈ (problem.nextMoves branch).1)
    (through : problem.applyWith check move branch = .success after) :
    ∃ rule ∈ problem.table.rules.toList, ∃ position < rule.rhs.length,
      move = .ofItem (problem.table.rules.itemAt rule position) ∧
      ((problem.table.rules.itemAt rule position).action = .accept →
        position + 1 = branch.stack.items.length ∧ branch.cursor = problem.stream.size) ∧
      ∃ trees cursor moved,
        problem.Rewrites (problem.table.rules.itemAt rule position) branch.stack.items
          branch.cursor trees cursor ∧
        ((problem.table.rules.itemAt rule position).action ≠ .shift → allowed trees) ∧
        after = problem.complete moved ∧
        moved.Stands trees cursor (problem.table.rules.itemAt rule position).isAccept := by
  obtain ⟨_, _, _, rule, hrule, position, hsymbol, rfl, _, whole⟩ := of_mem_nextMoves clean proposed
  have hposition : position < rule.rhs.length := (List.getElem?_eq_some_iff.1 hsymbol).1
  obtain ⟨trees, cursor, rewrites, passes, _, hafter⟩ :=
    (applyWith_eq_success judges clean (Branch.isOver_eq_false_iff.1 going).2).1 through
  exact ⟨rule, hrule, position, hposition, rfl, whole, trees, cursor, _, rewrites, passes, hafter,
    stands_moved going⟩

/-- An accepting item that covers the whole stack makes a single tree of it. -/
theorem Rewrites.single {rule : Rule S} {position : Nat} {trees trees' : List (Token S)}
    {cursor cursor' : Nat} (hposition : position < rule.rhs.length)
    (accepts : (problem.table.rules.itemAt rule position).action = .accept)
    (whole : position + 1 = trees.length)
    (h : problem.Rewrites (problem.table.rules.itemAt rule position) trees cursor trees' cursor') :
    ∃ children, trees = children.reverse ∧ children.map Token.kind = rule.rhs ∧
      trees' = [Token.reduce rule.lhs children] ∧ cursor' = cursor := by
  obtain ⟨last, _⟩ := RuleSet.action_itemAt_eq_accept.1 accepts
  cases h with
  | shift action =>
    rw [accepts] at action
    cases action
  | @contract children rest _ _ kinds _ =>
    have kinds : children.map Token.kind = rule.rhs := kinds
    have length := congrArg List.length kinds
    rw [List.length_map] at length
    rw [List.length_append, List.length_reverse] at whole
    -- The children are as many as the item covers, so nothing lies below them.
    have nothing : rest = [] := List.eq_nil_of_length_eq_zero (by omega)
    subst nothing
    exact ⟨children, List.append_nil _, kinds, rfl, rfl⟩

/-- With the check of adjacency this is a transition. -/
theorem Advances.inversion {before after : Branch S} {move : Move S}
    (h : problem.Advances before move after) :
    ∃ rule ∈ problem.table.rules.toList, ∃ position < rule.rhs.length,
      move = .ofItem (problem.table.rules.itemAt rule position) ∧
      ((problem.table.rules.itemAt rule position).action = .accept →
        position + 1 = before.stack.items.length ∧ before.cursor = problem.stream.size) ∧
      ∃ trees cursor moved,
        problem.Transition (problem.table.rules.itemAt rule position) before.stack.items
          before.cursor trees cursor ∧
        after = problem.complete moved ∧
        moved.Stands trees cursor (problem.table.rules.itemAt rule position).isAccept := by
  obtain ⟨rule, hrule, position, hposition, hmove, whole, trees, cursor, moved, rewrites, seated,
    hafter, stands⟩ :=
    rewrites_of_applyWith (judges_checkAdjacency problem) h.clean h.going h.proposed h.through
  exact ⟨rule, hrule, position, hposition, hmove, whole, trees, cursor, moved,
    transition_iff.2 ⟨rewrites, seated⟩, hafter, stands⟩

/-- An item that matches is followed if there is a transition for it and the
symbol after its dot is met. -/
theorem advances_of_matches {item : Item S} {trees : List (Token S)} {cursor : Nat}
    (clean : branch.stack.popped = []) (going : branch.isOver = false)
    (linked : problem.Linked branch.stack.items branch.cursor) (matched : problem.Matches branch item)
    (transition : problem.Transition item branch.stack.items branch.cursor trees cursor)
    (met : (Move.ofItem item).HintMet trees) :
    ∃ moved : Branch S, problem.Advances branch (.ofItem item) (problem.complete moved) ∧
      moved.Stands trees cursor item.isAccept := by
  have through := (apply_eq_success clean (Branch.isOver_eq_false_iff.1 going).2).2
    ⟨trees, cursor, transition, met, rfl⟩
  exact ⟨_, ⟨clean, going, ofItem_mem_nextMoves clean going linked matched, through⟩,
    stands_moved going⟩

/-- A branch is completed if the start symbol is alone on the stack, with at most
an end-marker left, in a table without accepting items. -/
theorem stands_complete_of_settled {trees : List (Token S)} {cursor : Nat}
    (h : branch.Stands trees cursor false) (implicit : problem.table.acceptsExplicitly = false)
    (kinds : trees.map Token.kind = [problem.table.start]) (settled : problem.SettledAt cursor) :
    (problem.complete branch).Stands trees problem.stream.size true := by
  have going : branch.isOver = false := Branch.isOver_eq_false_iff.2 ⟨h.done, h.error⟩
  have complete : problem.IsComplete branch := by
    refine ⟨implicit, ?_, ?_⟩
    · rw [h.stack]
      exact kinds
    · rw [isSettled_iff, h.cursor]
      exact settled
  rw [complete_of_isComplete going complete]
  exact ⟨h.stack, rfl, rfl, h.error⟩

/-- What completion does to a branch: nothing, or it is accepted as it stands. -/
theorem stands_complete {trees : List (Token S)} {cursor : Nat} (h : branch.Stands trees cursor false) :
    (problem.complete branch).Stands trees cursor false ∨
      ((problem.complete branch).Stands trees problem.stream.size true ∧
        problem.table.acceptsExplicitly = false ∧ trees.map Token.kind = [problem.table.start] ∧
          problem.SettledAt cursor) := by
  by_cases hcomplete : problem.IsComplete branch
  · obtain ⟨implicit, kinds, settled⟩ := hcomplete
    rw [h.stack] at kinds
    rw [isSettled_iff, h.cursor] at settled
    exact .inr ⟨stands_complete_of_settled h implicit kinds settled, implicit, kinds, settled⟩
  · rw [complete_of_not_isComplete hcomplete]
    exact .inl h

theorem stands_complete_of_done {trees : List (Token S)} {cursor : Nat}
    (h : branch.Stands trees cursor true) : (problem.complete branch).Stands trees cursor true := by
  rw [complete_of_isOver (by rw [Branch.isOver, h.done, Bool.true_or])]
  exact h

/-- A branch begins with the first token on its stack, or fails if there is none. -/
theorem start_cases (problem : Problem S) :
    (∃ token, problem.stream.get? 0 = some token ∧
      ∃ moved : Branch S, problem.start = problem.complete moved ∧ moved.Stands [token] 1 false) ∨
    (problem.stream.get? 0 = none ∧ problem.start.error.isSome = true) := by
  cases hget : problem.stream.get? 0 with
  | some token =>
    refine .inl ⟨token, rfl, ?_⟩
    refine ⟨{ Branch.blank.enter .shift with stack := ⟨[token], []⟩, cursor := 1 }, ?_,
      ⟨rfl, rfl, rfl, rfl⟩⟩
    unfold start shift
    dsimp only
    rw [show (Branch.blank.enter .shift : Branch S).cursor = 0 from rfl, hget]
    rfl
  | none =>
    refine .inr ⟨rfl, ?_⟩
    unfold start shift
    dsimp only
    rw [show (Branch.blank.enter .shift : Branch S).cursor = 0 from rfl, hget]
    rfl

/-! ## §3. Runs. -/

/-- A move that leaves no failure behind has gone through. -/
theorem applyWith_eq_success_of_alive (check : Branch S → Attempt S) {move : Move S}
    (alive : (problem.applyWith check move branch).branch.error = none) :
    problem.applyWith check move branch = .success (problem.applyWith check move branch).branch := by
  refine Attempt.eq_success_of_error ?_
  cases herror : (problem.applyWith check move branch).error with
  | none => rfl
  | some error =>
    have failed := error_of_applyWith herror
    rw [alive] at failed
    cases failed

/-- Playing a move leads to what the move advances to, unless it fails. -/
theorem advances_of_play {move : Move S} (clean : branch.stack.popped = [])
    (going : branch.isOver = false) (proposed : move ∈ (problem.nextMoves branch).1)
    (alive : (problem.apply move branch).branch.error = none) :
    problem.Advances branch move (problem.apply move branch).branch := by
  exact ⟨clean, going, proposed, applyWith_eq_success_of_alive problem.checkAdjacency alive⟩

/-- What holds at the beginning and is kept by the moves that go through holds
of every branch that has not failed. -/
theorem run_induct {maxSteps : Option Nat} {motive : Branch S → Prop}
    (start : problem.start.error = none → motive problem.start)
    (advance : ∀ before move after, motive before → problem.Advances before move after → motive after)
    {history : List (Move S)} {final : Branch S}
    (run : problem.machine.Run maxSteps 0 problem.start history final) (alive : final.error = none) :
    motive final := by
  have kept : final.stack.popped = [] ∧ (final.error = none → motive final) := by
    refine run.invariant (fun branch => branch.stack.popped = [] ∧
      (branch.error = none → motive branch)) ?_ ⟨clean_start problem, start⟩
    intro branch move h going proposed
    obtain ⟨clean, holds⟩ := h
    -- A move that fails leaves its failure, so here the move has gone through.
    refine ⟨clean_apply problem move clean, ?_⟩
    intro alive
    have before : branch.error = none := by
      have : branch.isOver = false := going
      simp only [Branch.isOver, Bool.or_eq_false_iff] at this
      simpa using this.2
    exact advance branch move _ (holds before) (advances_of_play clean going proposed alive)
  exact kept.2 alive

/-! ## §4. Results without a failure. -/

omit [DecidableEq S] in
/-- A branch that is not over fails if it is interrupted. -/
theorem error_interrupt (going : branch.isOver = false) : branch.interrupt.error.isSome = true := by
  rw [Branch.interrupt, if_neg (by simp [going])]
  exact Branch.isSome_error_fail _ _

omit [DecidableEq S] in
theorem isAccepted_of_failed (failed : branch.error.isSome = true) : branch.result.isAccepted = false := by
  show branch.error.isNone = false
  rw [← Option.not_isSome, failed]
  rfl

/-- A branch that is not over fails if nothing is proposed. -/
theorem isAccepted_of_nextMoves_eq_nil (clean : branch.stack.popped = []) (going : branch.isOver = false)
    (nothing : (problem.nextMoves branch).1 = []) :
    (problem.nextMoves branch).2.result.isAccepted = false := by
  have isOver := isOver_of_nextMoves_eq_nil clean nothing
  rw [going] at isOver
  exact isAccepted_of_failed (isOver.resolve_left Bool.false_ne_true)

/-- A branch ends without a failure only if it is done. -/
theorem accepted_of_ending {maxSteps : Option Nat} {steps : Nat} {result : ParseResult S}
    (clean : branch.stack.popped = [])
    (h : problem.machine.ending? maxSteps steps branch = some result) (accepted : result.error = none) :
    branch.error = none ∧ branch.done = true ∧
      result.forest = branch.stack.items.map Token.erase := by
  cases Machine.ends_of_ending h with
  | finished ended =>
    have alive : branch.error = none := accepted
    have ended : branch.isOver = true := ended
    refine ⟨alive, Branch.done_of_isOver ended alive, ?_⟩
    show branch.stack.drain.map Token.erase = _
    rw [UndoStack.drain_of_clean clean]
  -- An interruption and a prediction without proposals both leave a failure.
  | cut going =>
    have failed := error_interrupt going
    rw [show branch.interrupt.error = none from accepted] at failed
    cases failed
  | stuck going _ nothing =>
    rcases isOver_of_nextMoves_eq_nil clean nothing with ended | failed
    · rw [show branch.isOver = false from going] at ended
      cases ended
    · rw [show (problem.nextMoves branch).2.error = none from accepted] at failed
      cases failed

end Problem

end ShiftReduce
