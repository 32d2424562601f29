/-
  ShiftReduce.Proofs.Branch.Transition
  ────────────────────────────────
  **WHAT A MOVE DOES TO THE STACK AND TO THE CURSOR.**

  `Problem.Transition` lists the two things that a move can do: shift the next
  token, or put a node over the top of the stack.  Statements about runs argue
  with transitions and never open an operation.

  Main statements: `stepWith_eq_success` and `applyWith_eq_success`, which say
  exactly when a move goes through, under any check of what a reduction leads
  to, and what the branch is afterwards; and `clean_applyWith`: no move leaves a
  pop to undo behind.  `apply_eq_success` and `clean_apply` are the cases with
  the check of adjacency.
-/
import ShiftReduce.Proofs.Branch.Operations

namespace ShiftReduce

variable {S : Type} [DecidableEq S] [GrammarSymbol S]

/-! ## §1. Transitions. -/

/-- What following an item can do to the trees on the stack, top first, and to
the cursor. -/
inductive Problem.Transition (problem : Problem S) (item : Item S) :
    List (Token S) → Nat → List (Token S) → Nat → Prop where
  | shift {trees : List (Token S)} {cursor : Nat} {token : Token S}
      (action : item.action = .shift) (next : problem.stream.get? cursor = some token) :
      Transition problem item trees cursor (token :: trees) (cursor + 1)
  | contract {children rest : List (Token S)} {cursor : Nat}
      (action : item.action ≠ .shift) (kinds : children.map Token.kind = item.rule.rhs)
      (follows : problem.table.canFollow (rest.head?.map Token.kind) item.rule.lhs = true)
      (consumed : item.action = .accept → problem.stream.size ≤ cursor) :
      Transition problem item (children.reverse ++ rest) cursor
        (Token.reduce item.rule.lhs children :: rest) cursor

/-- The same, wherever the node of a contraction comes to sit. -/
inductive Problem.Rewrites (problem : Problem S) (item : Item S) :
    List (Token S) → Nat → List (Token S) → Nat → Prop where
  | shift {trees : List (Token S)} {cursor : Nat} {token : Token S}
      (action : item.action = .shift) (next : problem.stream.get? cursor = some token) :
      Rewrites problem item trees cursor (token :: trees) (cursor + 1)
  | contract {children rest : List (Token S)} {cursor : Nat}
      (action : item.action ≠ .shift) (kinds : children.map Token.kind = item.rule.rhs)
      (consumed : item.action = .accept → problem.stream.size ≤ cursor) :
      Rewrites problem item (children.reverse ++ rest) cursor
        (Token.reduce item.rule.lhs children :: rest) cursor

theorem Problem.transition_iff {problem : Problem S} {item : Item S} {trees trees' : List (Token S)}
    {cursor cursor' : Nat} :
    problem.Transition item trees cursor trees' cursor' ↔
      problem.Rewrites item trees cursor trees' cursor' ∧
        (item.action ≠ .shift → problem.Seated trees') := by
  constructor
  · intro h
    cases h with
    | shift action next => exact ⟨.shift action next, fun other => absurd action other⟩
    | contract action kinds follows consumed =>
      refine ⟨.contract action kinds consumed, fun _ top below h => ?_⟩
      cases h
      exact follows
  · intro h
    obtain ⟨rewrites, seated⟩ := h
    cases rewrites with
    | shift action next => exact .shift action next
    | contract action kinds consumed =>
      exact .contract action kinds (seated action _ _ rfl) consumed

/-- The word for what a branch does when it follows an item with this action. -/
def Action.phase : Action → Phase
  | shift => .shift
  | reduce => .reduce
  | accept => .accept

/-- The branch after following an item, with the trees and the cursor that this leads to. -/
def Branch.followed (branch : Branch S) (item : Item S) (trees : List (Token S)) (cursor : Nat) :
    Branch S :=
  { branch.enter item.action.phase with
    stack := ⟨trees, []⟩
    cursor
    done := branch.done || item.isAccept }

namespace Problem

variable {problem : Problem S} {branch after : Branch S} {check : Branch S → Attempt S}
  {allowed : List (Token S) → Prop}

/-- Does what the item calls for. -/
def followWith (problem : Problem S) (check : Branch S → Attempt S) (item : Item S)
    (branch : Branch S) : Attempt S :=
  match item.action with
  | .shift => problem.shift branch
  | .reduce => problem.reduceWith check item.rule branch
  | .accept => problem.acceptWith check item.rule branch

/-- An item can be followed if and only if this is a rewriting that leads to
trees which the check allows. -/
theorem followWith_eq_success {item : Item S} (judges : Judges check allowed)
    (clean : branch.stack.popped = []) :
    problem.followWith check item branch = .success after ↔
      ∃ trees cursor, problem.Rewrites item branch.stack.items branch.cursor trees cursor ∧
        (item.action ≠ .shift → allowed trees) ∧ after = branch.followed item trees cursor := by
  obtain ⟨cursor, ⟨items, popped⟩, steps, done, error, diagnostics⟩ := branch
  cases (show popped = [] from clean)
  unfold followWith
  cases haction : item.action with
  | shift =>
    rw [shift_eq_success]
    constructor
    · intro h
      obtain ⟨token, next, rfl⟩ := h
      refine ⟨_, _, .shift haction next, fun other => absurd rfl other, ?_⟩
      simp [Branch.followed, Item.isAccept, haction, Action.phase, UndoStack.push]
    · intro h
      obtain ⟨trees, cursor, rewrites, _, rfl⟩ := h
      cases rewrites with
      | contract action => exact absurd haction action
      | @shift _ _ token action next =>
        refine ⟨token, next, ?_⟩
        simp [Branch.followed, Item.isAccept, haction, Action.phase, UndoStack.push]
  | reduce =>
    rw [reduceWith_eq_success judges rfl]
    constructor
    · intro h
      obtain ⟨children, rest, rfl, kinds, passes, rfl⟩ := h
      refine ⟨_, _, .contract (by simp [haction]) kinds (by simp [haction]), fun _ => passes, ?_⟩
      simp [Branch.followed, Item.isAccept, haction, Action.phase]
    · intro h
      obtain ⟨trees, cursor, rewrites, passes, rfl⟩ := h
      cases rewrites with
      | shift action => simp [haction] at action
      | @contract children rest _ action kinds consumed =>
        refine ⟨children, rest, rfl, kinds, passes (by simp), ?_⟩
        simp [Branch.followed, Item.isAccept, haction, Action.phase]
  | accept =>
    rw [acceptWith_eq_success judges rfl]
    constructor
    · intro h
      obtain ⟨children, rest, rfl, kinds, passes, consumed, rfl⟩ := h
      refine ⟨_, _, .contract (by simp [haction]) kinds (fun _ => consumed), fun _ => passes, ?_⟩
      simp [Branch.followed, Item.isAccept, haction, Action.phase]
    · intro h
      obtain ⟨trees, cursor, rewrites, passes, rfl⟩ := h
      cases rewrites with
      | shift action => simp [haction] at action
      | @contract children rest _ action kinds consumed =>
        refine ⟨children, rest, rfl, kinds, passes (by simp), consumed haction, ?_⟩
        simp [Branch.followed, Item.isAccept, haction, Action.phase]

theorem clean_followWith (problem : Problem S) (judges : Judges check allowed) (item : Item S)
    (clean : branch.stack.popped = []) :
    (problem.followWith check item branch).branch.stack.popped = [] := by
  unfold followWith
  split
  · unfold shift
    dsimp only
    split
    · exact clean
    · exact clean
  · exact clean_reduceWith problem judges item.rule branch
  · exact clean_acceptWith problem judges item.rule clean

end Problem

/-! ## §2. Moves. -/

/-- The hint of the move, if there is one, is met by the top of the stack. -/
def Move.HintMet (move : Move S) (trees : List (Token S)) : Prop :=
  ∀ expected, move.hint = some expected →
    ∃ top, trees.head? = some top ∧ (top.kind = expected ∨ top.kind ∈ move.item.lookaheads)

namespace Problem

variable {problem : Problem S} {move : Move S} {branch after : Branch S}

theorem checkHint_eq_success :
    checkHint move branch = .success after ↔
      move.HintMet branch.stack.items ∧
        after = if move.hint.isSome then branch.enter .checkBranch else branch := by
  unfold checkHint Move.HintMet
  cases move.hint with
  | none =>
    rw [Attempt.success_inj]
    constructor
    · intro h
      subst h
      exact ⟨fun _ h => (by cases h), rfl⟩
    · intro h
      obtain ⟨_, rfl⟩ := h
      rfl
  | some expected =>
    have peek : (branch.enter .checkBranch).stack.peek? = branch.stack.items.head? := rfl
    simp only [peek, Option.some.injEq, forall_eq', Option.isSome_some, if_true]
    -- Without a top the hint is missed; a top meets it by its kind or as a lookahead.
    cases branch.stack.items.head? with
    | none => simp [Attempt.refusal_ne_success]
    | some top =>
      simp only [Option.some.injEq, exists_eq_left']
      split
      · next met =>
        rw [Attempt.success_inj, eq_comm]
        exact ⟨fun h => ⟨met, h⟩, fun h => h.2⟩
      · next missed => simp [Attempt.refusal_ne_success, missed]

theorem stack_checkHint (move : Move S) (branch : Branch S) :
    (checkHint move branch).branch.stack = branch.stack := by
  unfold checkHint
  split
  · rfl
  · dsimp only
    split
    · rfl
    · split
      · rfl
      · rfl

end Problem

/-- The branch after a move, with the trees and the cursor that this leads to. -/
def Branch.moved (branch : Branch S) (move : Move S) (trees : List (Token S)) (cursor : Nat) :
    Branch S :=
  let followed := branch.followed move.item trees cursor
  if move.hint.isSome then followed.enter .checkBranch else followed

namespace Branch

omit [DecidableEq S]

variable (branch : Branch S) (move : Move S) (trees : List (Token S)) (cursor : Nat)

@[simp]
theorem stack_moved : (branch.moved move trees cursor).stack = ⟨trees, []⟩ := by
  unfold moved
  dsimp only
  split
  · rfl
  · rfl

@[simp]
theorem cursor_moved : (branch.moved move trees cursor).cursor = cursor := by
  unfold moved
  dsimp only
  split
  · rfl
  · rfl

@[simp]
theorem error_moved : (branch.moved move trees cursor).error = branch.error := by
  unfold moved
  dsimp only
  split
  · rfl
  · rfl

@[simp]
theorem done_moved : (branch.moved move trees cursor).done = (branch.done || move.item.isAccept) := by
  unfold moved
  dsimp only
  split
  · rfl
  · rfl

end Branch

namespace Problem

variable {problem : Problem S} {move : Move S} {branch after : Branch S}

variable {check : Branch S → Attempt S} {allowed : List (Token S) → Prop}

/-- Does what the item of the move calls for, with the given check of its
outcome, then looks at the hint. -/
def stepWith (problem : Problem S) (check : Branch S → Attempt S) (move : Move S)
    (branch : Branch S) : Attempt S :=
  (problem.followWith check move.item branch).andThen (checkHint move)

/-- A step goes through if and only if its item can be followed and the hint is
met; the branch is then determined. -/
theorem stepWith_eq_success (judges : Judges check allowed) (clean : branch.stack.popped = []) :
    problem.stepWith check move branch = .success after ↔
      ∃ trees cursor,
        problem.Rewrites move.item branch.stack.items branch.cursor trees cursor ∧
          (move.item.action ≠ .shift → allowed trees) ∧ move.HintMet trees ∧
            after = branch.moved move trees cursor := by
  simp only [stepWith, Attempt.andThen_eq_success, followWith_eq_success judges clean,
    checkHint_eq_success]
  constructor
  · intro h
    obtain ⟨_, ⟨trees, cursor, rewrites, passes, rfl⟩, met, rfl⟩ := h
    exact ⟨trees, cursor, rewrites, passes, met, rfl⟩
  · intro h
    obtain ⟨trees, cursor, rewrites, passes, met, rfl⟩ := h
    exact ⟨_, ⟨trees, cursor, rewrites, passes, rfl⟩, met, rfl⟩

theorem clean_stepWith (problem : Problem S) (judges : Judges check allowed) (move : Move S)
    (clean : branch.stack.popped = []) :
    (problem.stepWith check move branch).branch.stack.popped = [] := by
  refine Attempt.clean_andThen (clean_followWith problem judges move.item clean) ?_
  intro middle clean
  rw [stack_checkHint, clean]

/-! ## §3. Completion, and the whole of a move. -/

/-- Nothing but an end-marker is left from the cursor on. -/
def SettledAt (problem : Problem S) (cursor : Nat) : Prop :=
  problem.stream.lexemes.drop cursor = [] ∨
    ∃ marker, problem.stream.lexemes.drop cursor = [marker] ∧
      GrammarSymbol.isEndMarker marker.kind = true

theorem isSettled_iff : problem.isSettled branch = true ↔ problem.SettledAt branch.cursor := by
  unfold isSettled SettledAt
  split
  · next none => simp [none]
  · next last one => simp [one]
  · next neither one =>
    constructor
    · intro h
      cases h
    · intro h
      rcases h with none | ⟨marker, single, _⟩
      · exact absurd none neither
      · exact absurd single (one marker)

/-- The branch is accepted without an accepting item: the grammar has none, the
start symbol is alone on the stack, and nothing but an end-marker is left. -/
def IsComplete (problem : Problem S) (branch : Branch S) : Prop :=
  problem.table.acceptsExplicitly = false ∧
    branch.stack.items.map Token.kind = [problem.table.start] ∧ problem.isSettled branch = true

theorem complete_of_isComplete (alive : branch.isOver = false) (h : problem.IsComplete branch) :
    problem.complete branch =
      { branch.enter .accept with cursor := problem.stream.size, done := true } := by
  obtain ⟨implicit, kinds, settled⟩ := h
  simp [complete, alive, implicit, kinds, settled]

theorem complete_of_not_isComplete (h : ¬problem.IsComplete branch) :
    problem.complete branch = branch := by
  unfold complete
  split
  · rfl
  · next going =>
    split
    · next complete =>
      simp only [Bool.or_eq_true, not_or, Bool.not_eq_true] at going
      simp only [Bool.and_eq_true, decide_eq_true_eq] at complete
      exact absurd ⟨going.2, complete.1, complete.2⟩ h
    · rfl

theorem complete_of_isOver (h : branch.isOver = true) : problem.complete branch = branch := by
  simp [complete, h]

@[simp]
theorem stack_complete (problem : Problem S) (branch : Branch S) :
    (problem.complete branch).stack = branch.stack := by
  unfold complete
  split
  · rfl
  · split
    · rfl
    · rfl

/-- The branch as a move finds it, counted and noted. -/
def counted (move : Move S) (branch : Branch S) : Branch S :=
  { branch with steps := branch.steps + 1 }.consider [move.item]

/-- Makes a move, with the given check of the outcome of a reduction. -/
def applyWith (problem : Problem S) (check : Branch S → Attempt S) (move : Move S)
    (branch : Branch S) : Attempt S :=
  match branch.error with
  | some error => ⟨branch, some error⟩
  | none =>
    let attempt := problem.stepWith check move (counted move branch)
    match attempt.error with
    | none => .success (problem.complete attempt.branch)
    | some error => ⟨attempt.branch.fail error, some error⟩

/-- Moves are made with the check of adjacency. -/
theorem applyWith_checkAdjacency (problem : Problem S) :
    problem.applyWith problem.checkAdjacency = problem.apply := rfl

variable {check : Branch S → Attempt S} {allowed : List (Token S) → Prop}

/-- What a move that goes through comes to, and what one that is refused does. -/
theorem applyWith_eq (problem : Problem S) (check : Branch S → Attempt S) (move : Move S)
    (alive : branch.error = none) :
    problem.applyWith check move branch =
      match (problem.stepWith check move (counted move branch)).error with
      | none => .success (problem.complete (problem.stepWith check move (counted move branch)).branch)
      | some error =>
        ⟨(problem.stepWith check move (counted move branch)).branch.fail error, some error⟩ := by
  unfold applyWith
  split
  · next error herror =>
    rw [alive] at herror
    cases herror
  · rfl

theorem apply_eq (problem : Problem S) (move : Move S) (alive : branch.error = none) :
    problem.apply move branch =
      match (problem.step move (counted move branch)).error with
      | none => .success (problem.complete (problem.step move (counted move branch)).branch)
      | some error => ⟨(problem.step move (counted move branch)).branch.fail error, some error⟩ := by
  rw [← applyWith_checkAdjacency]
  exact applyWith_eq problem problem.checkAdjacency move alive

/-- A branch that has failed refuses every move with the failure that it has. -/
theorem apply_of_failed {error : ParseError S} (problem : Problem S) (move : Move S)
    (failed : branch.error = some error) : problem.apply move branch = ⟨branch, some error⟩ := by
  simp only [apply, failed]

/-- A move goes through if and only if its item can be followed and the hint is
met; the branch is then completed if it can be. -/
theorem applyWith_eq_success (judges : Judges check allowed) (clean : branch.stack.popped = [])
    (alive : branch.error = none) :
    problem.applyWith check move branch = .success after ↔
      ∃ trees cursor,
        problem.Rewrites move.item branch.stack.items branch.cursor trees cursor ∧
          (move.item.action ≠ .shift → allowed trees) ∧ move.HintMet trees ∧
            after = problem.complete ((counted move branch).moved move trees cursor) := by
  have clean' : (counted move branch).stack.popped = [] := clean
  rw [applyWith_eq problem check move alive]
  -- The move goes through with its step, which is described already.
  cases herror : (problem.stepWith check move (counted move branch)).error with
  | none =>
    obtain ⟨trees, cursor, rewrites, passes, met, same⟩ :=
      (stepWith_eq_success judges clean').1 (Attempt.eq_success_of_error herror)
    simp only [Attempt.success_inj]
    constructor
    · intro h
      exact ⟨trees, cursor, rewrites, passes, met, by rw [← h, same]⟩
    · intro h
      obtain ⟨trees', cursor', rewrites', passes', met', rfl⟩ := h
      rw [(stepWith_eq_success judges clean').2 ⟨trees', cursor', rewrites', passes', met', rfl⟩]
      rfl
  -- A step that is refused is not one that goes through, whatever it leads to.
  | some error =>
    constructor
    · intro h
      cases congrArg Attempt.error h
    · intro h
      obtain ⟨trees', cursor', rewrites', passes', met', rfl⟩ := h
      rw [(stepWith_eq_success judges clean').2 ⟨trees', cursor', rewrites', passes', met', rfl⟩]
        at herror
      cases herror

/-- A move goes through if and only if there is a transition for its item and
the hint is met; the branch is then completed if it can be. -/
theorem apply_eq_success (clean : branch.stack.popped = []) (alive : branch.error = none) :
    problem.apply move branch = .success after ↔
      ∃ trees cursor,
        problem.Transition move.item branch.stack.items branch.cursor trees cursor ∧
          move.HintMet trees ∧
          after = problem.complete ((counted move branch).moved move trees cursor) := by
  simp only [transition_iff, and_assoc]
  exact applyWith_eq_success (judges_checkAdjacency problem) clean alive

/-- No move leaves a pop to undo behind, whether or not it goes through. -/
theorem clean_applyWith (problem : Problem S) (judges : Judges check allowed) (move : Move S)
    (clean : branch.stack.popped = []) :
    (problem.applyWith check move branch).branch.stack.popped = [] := by
  cases herror : branch.error with
  | some error =>
    simp only [applyWith, herror]
    exact clean
  | none =>
    -- A refused step may have popped, but has put everything back.
    have stepped : (problem.stepWith check move (counted move branch)).branch.stack.popped = [] :=
      clean_stepWith problem judges move clean
    rw [applyWith_eq problem check move herror]
    split
    · show (problem.complete _).stack.popped = []
      rw [stack_complete, stepped]
    · exact stepped

theorem clean_apply (problem : Problem S) (move : Move S) (clean : branch.stack.popped = []) :
    (problem.apply move branch).branch.stack.popped = [] :=
  clean_applyWith problem (judges_checkAdjacency problem) move clean

/-- A refused move leaves its failure in the branch. -/
theorem error_of_applyWith {error : ParseError S}
    (h : (problem.applyWith check move branch).error = some error) :
    (problem.applyWith check move branch).branch.error.isSome = true := by
  cases herror : branch.error with
  | some found =>
    simp only [applyWith, herror, Option.isSome_some]
  | none =>
    rw [applyWith_eq problem check move herror] at h ⊢
    split at h
    · cases h
    · next failure _ => exact Branch.isSome_error_fail _ failure

end Problem

end ShiftReduce
