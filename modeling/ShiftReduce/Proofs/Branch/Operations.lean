/-
  ShiftReduce.Proofs.Branch.Operations
  ────────────────────────────────
  **WHEN THE OPERATIONS ON A BRANCH GO THROUGH.**

  Each operation that can be refused is inverted once: it goes through if and
  only if a condition on stack and cursor holds, and the branch is then
  determined.  Whether or not it goes through, it leaves no pop to undo.

  What is checked after a reduction is left open: the operations reduce and
  accept under any check that judges the trees on the stack.

  Main statements: `shift_eq_success`, `reduceWith_eq_success` and
  `acceptWith_eq_success`, with `clean_reduceWith` and `clean_acceptWith` beside
  them.
-/
import ShiftReduce.Branch.Application

namespace ShiftReduce

variable {S : Type}

/-! ## §1. Notes leave the rest of a branch alone. -/

namespace Branch

variable [GrammarSymbol S]

@[simp]
theorem cursor_enter (branch : Branch S) (phase : Phase) :
    (branch.enter phase).cursor = branch.cursor := rfl

@[simp]
theorem stack_enter (branch : Branch S) (phase : Phase) :
    (branch.enter phase).stack = branch.stack := rfl

@[simp]
theorem done_enter (branch : Branch S) (phase : Phase) :
    (branch.enter phase).done = branch.done := rfl

@[simp]
theorem error_enter (branch : Branch S) (phase : Phase) :
    (branch.enter phase).error = branch.error := rfl

@[simp]
theorem cursor_consider (branch : Branch S) (items : List (Item S)) :
    (branch.consider items).cursor = branch.cursor := rfl

@[simp]
theorem stack_consider (branch : Branch S) (items : List (Item S)) :
    (branch.consider items).stack = branch.stack := rfl

@[simp]
theorem done_consider (branch : Branch S) (items : List (Item S)) :
    (branch.consider items).done = branch.done := rfl

@[simp]
theorem error_consider (branch : Branch S) (items : List (Item S)) :
    (branch.consider items).error = branch.error := rfl

/-- The first failure to be noted is the one that the branch has. -/
theorem error_fail {branch : Branch S} (alive : branch.error = none) (error : ParseError S) :
    (branch.fail error).error = some error := by
  show Option.or branch.error (some error) = some error
  rw [alive, Option.none_or]

/-- Noting a failure leaves one in the branch, be it an earlier one. -/
theorem isSome_error_fail (branch : Branch S) (error : ParseError S) :
    (branch.fail error).error.isSome = true := by
  show (Option.or branch.error (some error)).isSome = true
  rw [Option.isSome_or, Option.isSome_some, Bool.or_true]

/-! A branch that has failed is over, and one that is over without a failure is accepted. -/

theorem isOver_of_failed {branch : Branch S} (failed : branch.error.isSome = true) :
    branch.isOver = true := by
  rw [isOver, failed, Bool.or_true]

theorem done_of_isOver {branch : Branch S} (ended : branch.isOver = true)
    (alive : branch.error = none) : branch.done = true := by
  rw [isOver, alive] at ended
  exact (Bool.or_false _).symm.trans ended

end Branch

/-! ## §2. Attempts that go through. -/

namespace Attempt

variable [GrammarSymbol S]

theorem success_inj {left right : Branch S} : success left = success right ↔ left = right := by
  constructor
  · intro h
    exact congrArg Attempt.branch h
  · intro h
    rw [h]

theorem refusal_ne_success (branch after : Branch S) (kind : ErrorKind S) (position : Option Nat) :
    refusal branch kind position ≠ success after := by
  intro h
  cases congrArg Attempt.error h

theorem eq_success_of_error {attempt : Attempt S} (h : attempt.error = none) :
    attempt = success attempt.branch := by
  cases attempt
  cases h
  rfl

/-- Two operations go through one after the other if both do. -/
theorem andThen_eq_success {attempt : Attempt S} {next : Branch S → Attempt S} {final : Branch S} :
    attempt.andThen next = success final ↔
      ∃ middle, attempt = success middle ∧ next middle = success final := by
  constructor
  · intro h
    cases herror : attempt.error with
    | none =>
      refine ⟨attempt.branch, eq_success_of_error herror, ?_⟩
      -- Without a failure the second operation has been done.
      rw [eq_success_of_error herror, success_andThen] at h
      exact h
    | some error =>
      simp only [andThen, herror] at h
      rw [h] at herror
      cases herror
  · intro h
    obtain ⟨middle, rfl, h⟩ := h
    exact h

/-- Operations that leave no pop to undo leave none one after the other. -/
theorem clean_andThen {attempt : Attempt S} {next : Branch S → Attempt S}
    (first : attempt.branch.stack.popped = [])
    (second : ∀ middle : Branch S, middle.stack.popped = [] → (next middle).branch.stack.popped = []) :
    (attempt.andThen next).branch.stack.popped = [] := by
  unfold andThen
  split
  · exact second _ first
  · exact first

end Attempt

variable [DecidableEq S] [GrammarSymbol S]

/-! ## §3. Popping a right-hand side. -/

omit [GrammarSymbol S] in
theorem popSymbols_map_kind (taken rest popped : List (Token S)) :
    popSymbols (taken.map Token.kind) ⟨taken ++ rest, popped⟩ =
      (⟨rest, taken.reverse ++ popped⟩, none) := by
  induction taken generalizing popped with
  | nil => rfl
  | cons top taken ih =>
    simp only [List.map_cons, popSymbols, UndoStack.pop?, List.cons_append, if_true]
    rw [ih, List.reverse_cons, List.append_assoc]
    rfl

omit [GrammarSymbol S] in
/-- What has been popped has the kinds asked for. -/
theorem items_of_popSymbols {symbols : List S} {stack rest : UndoStack (Token S)}
    (h : popSymbols symbols stack = (rest, none)) :
    ∃ taken, taken.map Token.kind = symbols ∧ stack.items = taken ++ rest.items ∧
      rest.popped = taken.reverse ++ stack.popped := by
  induction symbols generalizing stack with
  | nil =>
    cases h
    exact ⟨[], rfl, rfl, rfl⟩
  | cons symbol symbols ih =>
    obtain ⟨items, popped⟩ := stack
    cases items with
    | nil => cases h
    | cons top items =>
      simp only [popSymbols, UndoStack.pop?] at h
      split at h
      · next kind =>
        obtain ⟨taken, hkinds, hitems, hpopped⟩ := ih h
        refine ⟨top :: taken, by rw [List.map_cons, hkinds, kind], congrArg (top :: ·) hitems, ?_⟩
        rw [hpopped, List.reverse_cons, List.append_assoc]
        rfl
      · cases h

/-! ## §4. The operations that move. -/

namespace Problem

variable {problem : Problem S} {branch after : Branch S}

theorem shift_eq_success :
    problem.shift branch = .success after ↔
      ∃ token, problem.stream.get? branch.cursor = some token ∧
        after = { branch.enter .shift with
          stack := branch.stack.push token, cursor := branch.cursor + 1 } := by
  simp only [shift, Branch.cursor_enter]
  cases problem.stream.get? branch.cursor with
  | none => simp [Attempt.refusal_ne_success]
  | some token =>
    simp only [Attempt.success_inj, Option.some.injEq, exists_eq_left']
    exact eq_comm

theorem contract_eq_success {rule : Rule S} (clean : branch.stack.popped = []) :
    problem.contract rule branch = .success after ↔
      ∃ children rest, branch.stack.items = children.reverse ++ rest ∧
        children.map Token.kind = rule.rhs ∧
        after = { branch.enter .reduce with
          stack := ⟨Token.reduce rule.lhs children :: rest, []⟩ } := by
  constructor
  · intro h
    simp only [contract, Branch.stack_enter] at h
    split at h
    · exact absurd h (Attempt.refusal_ne_success _ _ _ _)
    · next stack hpop =>
      -- The children come off last one first, and the log holds them in their order.
      obtain ⟨taken, hkinds, hitems, hpopped⟩ := items_of_popSymbols hpop
      rw [clean, List.append_nil] at hpopped
      refine ⟨taken.reverse, stack.items, by rw [List.reverse_reverse, hitems], ?_, ?_⟩
      · rw [List.map_reverse, hkinds, List.reverse_reverse]
      · rw [← Attempt.success_inj.1 h]
        simp only [UndoStack.commit, UndoStack.push, hpopped, List.reverse_reverse]
  · intro h
    obtain ⟨children, rest, hitems, hkinds, rfl⟩ := h
    have hstack : branch.stack = ⟨children.reverse ++ rest, []⟩ := by
      rw [← hitems, ← clean]
    have hpop : popSymbols rule.rhs.reverse branch.stack = (⟨rest, children⟩, none) := by
      rw [hstack, ← hkinds, ← List.map_reverse, popSymbols_map_kind, List.reverse_reverse,
        List.append_nil]
    simp only [contract, Branch.stack_enter, hpop, UndoStack.commit, UndoStack.push,
      List.reverse_reverse]

/-- A contraction that is refused leaves the stack as it was. -/
theorem clean_contract (problem : Problem S) (rule : Rule S) (branch : Branch S) :
    (problem.contract rule branch).branch.stack.popped = [] := by
  simp only [contract]
  split
  · rfl
  · rfl

theorem checkAdjacency_eq_success :
    problem.checkAdjacency branch = .success after ↔
      after = branch ∧ ∀ top rest, branch.stack.items = top :: rest →
        problem.table.canFollow (rest.head?.map Token.kind) top.kind = true := by
  cases hitems : branch.stack.items with
  | nil =>
    simp only [checkAdjacency, hitems, Attempt.success_inj]
    constructor
    · intro h
      subst h
      exact ⟨rfl, fun _ _ h => by cases h⟩
    · intro h
      exact h.1.symm
  | cons top rest =>
    simp only [checkAdjacency, hitems]
    split
    · next follows =>
      rw [Attempt.success_inj]
      constructor
      · intro h
        subst h
        refine ⟨rfl, ?_⟩
        intro top below h
        cases h
        exact follows
      · intro h
        exact h.1.symm
    · next refused =>
      constructor
      · intro h
        exact absurd h (Attempt.refusal_ne_success _ _ _ _)
      · intro h
        exact absurd (h.2 top rest rfl) refused

theorem checkConsumed_eq_success :
    problem.checkConsumed branch = .success after ↔
      problem.stream.size ≤ branch.cursor ∧ after = branch := by
  unfold checkConsumed
  split
  · next h =>
    rw [List.getElem?_eq_none_iff] at h
    rw [Attempt.success_inj, eq_comm]
    exact ⟨fun e => ⟨h, e⟩, fun e => e.2⟩
  · next lexeme h =>
    have lt : branch.cursor < problem.stream.size := (List.getElem?_eq_some_iff.1 h).1
    constructor
    · intro e
      exact absurd e (Attempt.refusal_ne_success _ _ _ _)
    · intro e
      omega

theorem stack_checkAdjacency (problem : Problem S) (branch : Branch S) :
    (problem.checkAdjacency branch).branch.stack = branch.stack := by
  unfold checkAdjacency
  split
  · rfl
  · dsimp only
    split
    · rfl
    · rfl

theorem stack_checkConsumed (problem : Problem S) (branch : Branch S) :
    (problem.checkConsumed branch).branch.stack = branch.stack := by
  unfold checkConsumed
  split
  · rfl
  · rfl

end Problem

/-! ## §5. Reductions with a check of their outcome. -/

/-- The check lets a branch pass as it is if the trees on its stack are allowed,
and refuses it otherwise; it never touches the stack. -/
structure Judges (check : Branch S → Attempt S) (allowed : List (Token S) → Prop) : Prop where
  through : ∀ branch after,
    check branch = .success after ↔ after = branch ∧ allowed branch.stack.items
  stack : ∀ branch, (check branch).branch.stack = branch.stack

namespace Problem

variable {problem : Problem S} {branch after : Branch S} {check : Branch S → Attempt S}
  {allowed : List (Token S) → Prop}

/-- The tree on top of the stack may sit on the one below it. -/
def Seated (problem : Problem S) (trees : List (Token S)) : Prop :=
  ∀ top rest, trees = top :: rest →
    problem.table.canFollow (rest.head?.map Token.kind) top.kind = true

theorem judges_checkAdjacency (problem : Problem S) :
    Judges problem.checkAdjacency problem.Seated where
  through := by
    intro branch after
    exact checkAdjacency_eq_success
  stack := stack_checkAdjacency problem

omit [DecidableEq S] in
/-- The check that lets everything pass. -/
theorem judges_success : Judges (S := S) Attempt.success fun _ => True where
  through := by
    intro branch after
    rw [Attempt.success_inj, eq_comm, and_true]
  stack := by
    intro branch
    rfl

/-- Contracts the right-hand side of a rule, then looks at the outcome. -/
def reduceWith (problem : Problem S) (check : Branch S → Attempt S) (rule : Rule S)
    (branch : Branch S) : Attempt S :=
  (problem.contract rule branch).andThen check

/-- Reduces by the last rule in this way, once no token is left. -/
def acceptWith (problem : Problem S) (check : Branch S → Attempt S) (rule : Rule S)
    (branch : Branch S) : Attempt S :=
  ((problem.checkConsumed (branch.enter .accept)).andThen (problem.reduceWith check rule)).andThen
    fun reduced => .success { reduced.enter .accept with done := true }

theorem reduceWith_eq_success {rule : Rule S} (judges : Judges check allowed)
    (clean : branch.stack.popped = []) :
    problem.reduceWith check rule branch = .success after ↔
      ∃ children rest, branch.stack.items = children.reverse ++ rest ∧
        children.map Token.kind = rule.rhs ∧
        allowed (Token.reduce rule.lhs children :: rest) ∧
        after = { branch.enter .reduce with
          stack := ⟨Token.reduce rule.lhs children :: rest, []⟩ } := by
  simp only [reduceWith, Attempt.andThen_eq_success, contract_eq_success clean, judges.through]
  constructor
  · intro h
    obtain ⟨_, ⟨children, rest, hitems, hkinds, rfl⟩, rfl, passes⟩ := h
    exact ⟨children, rest, hitems, hkinds, passes, rfl⟩
  · intro h
    obtain ⟨children, rest, hitems, hkinds, passes, rfl⟩ := h
    exact ⟨_, ⟨children, rest, hitems, hkinds, rfl⟩, rfl, passes⟩

theorem clean_reduceWith (problem : Problem S) (judges : Judges check allowed) (rule : Rule S)
    (branch : Branch S) : (problem.reduceWith check rule branch).branch.stack.popped = [] := by
  refine Attempt.clean_andThen (clean_contract problem rule branch) ?_
  intro middle clean
  rw [judges.stack, clean]

/-- An acceptance is a reduction once no token is left. -/
theorem acceptWith_eq_success {rule : Rule S} (judges : Judges check allowed)
    (clean : branch.stack.popped = []) :
    problem.acceptWith check rule branch = .success after ↔
      ∃ children rest, branch.stack.items = children.reverse ++ rest ∧
        children.map Token.kind = rule.rhs ∧
        allowed (Token.reduce rule.lhs children :: rest) ∧
        problem.stream.size ≤ branch.cursor ∧
        after = { branch.enter .accept with
          stack := ⟨Token.reduce rule.lhs children :: rest, []⟩, done := true } := by
  simp only [acceptWith, Attempt.andThen_eq_success, checkConsumed_eq_success, Attempt.success_inj]
  constructor
  · intro h
    obtain ⟨_, ⟨_, ⟨consumed, rfl⟩, reduced⟩, rfl⟩ := h
    have clean' : (branch.enter .accept).stack.popped = [] := clean
    obtain ⟨children, rest, hitems, hkinds, passes, rfl⟩ :=
      (reduceWith_eq_success judges clean').1 reduced
    exact ⟨children, rest, hitems, hkinds, passes, consumed, rfl⟩
  · intro h
    obtain ⟨children, rest, hitems, hkinds, passes, consumed, rfl⟩ := h
    have clean' : (branch.enter .accept).stack.popped = [] := clean
    exact ⟨_, ⟨_, ⟨consumed, rfl⟩,
      (reduceWith_eq_success judges clean').2 ⟨children, rest, hitems, hkinds, passes, rfl⟩⟩, rfl⟩

theorem clean_acceptWith (problem : Problem S) (judges : Judges check allowed) (rule : Rule S)
    (clean : branch.stack.popped = []) :
    (problem.acceptWith check rule branch).branch.stack.popped = [] := by
  refine Attempt.clean_andThen (Attempt.clean_andThen ?_ ?_) ?_
  · rw [stack_checkConsumed, Branch.stack_enter, clean]
  · intro middle _
    exact clean_reduceWith problem judges rule middle
  · intro middle clean
    exact clean

end Problem

end ShiftReduce
