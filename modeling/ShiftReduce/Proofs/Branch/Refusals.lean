/-
  ShiftReduce.Proofs.Branch.Refusals
  ────────────────────────────────
  **WHY A MOVE IS REFUSED, AND WHAT IT LEAVES BEHIND.**

  There are five ways for a move to be refused.  No token is left to shift, the
  stack does not show the rule, or tokens are left that should have been shifted:
  then nothing has been moved.  Or the node may not sit where it has come to sit,
  or the top of the stack is not what the move announced: then the node or the
  token stays on the stack.

  Main statements: `refuses_step` and `refuses_apply`: whatever is refused is
  refused in one of these ways, with this branch and this failure.  A move that
  follows an item of the table is never refused after the branch has been
  accepted (`done_of_refuses`).
-/
import ShiftReduce.Proofs.Branch.Transition
import ShiftReduce.Proofs.Grammar.Items

namespace ShiftReduce

variable {S : Type}

/-! ## §1. Operations that are refused. -/

/-- Of two operations one after the other, the first is refused, or the second
after the first has gone through. -/
theorem Attempt.andThen_refused [GrammarSymbol S] {attempt : Attempt S}
    {next : Branch S → Attempt S} {error : ParseError S}
    (refused : (attempt.andThen next).error = some error) :
    (attempt.error = some error ∧ attempt.andThen next = attempt) ∨
      ∃ middle, attempt = .success middle ∧ (next middle).error = some error ∧
        attempt.andThen next = next middle := by
  cases herror : attempt.error with
  | none =>
    rw [eq_success_of_error herror] at refused ⊢
    exact .inr ⟨_, rfl, refused, rfl⟩
  | some first =>
    have same : attempt.andThen next = attempt := by
      simp only [andThen, herror]
    rw [same, herror] at refused
    exact .inl ⟨refused, same⟩

variable [DecidableEq S]

/-- Popping that is refused has found the symbols asked for down to some tree, or
to the bottom, and can be undone as a whole. -/
theorem of_popSymbols_refused {symbols : List S} {stack after : UndoStack (Token S)} {symbol : S}
    {found : Option (Token S)} (h : popSymbols symbols stack = (after, some (symbol, found))) :
    after.rollback = stack.rollback ∧ found.map Token.kind ≠ some symbol ∧
      ∃ matched rest lower, symbols = matched.map Token.kind ++ symbol :: lower ∧
        stack.items = matched ++ rest ∧ rest.head? = found := by
  -- By induction on the symbols still to pop; whatever is popped can be put back.
  induction symbols generalizing stack with
  | nil => cases h
  | cons first symbols ih =>
    unfold popSymbols at h
    split at h
    · next bottom =>
      cases h
      exact ⟨rfl, Option.some_ne_none _ ∘ Eq.symm, [], [], symbols, rfl,
        UndoStack.pop?_eq_none_iff.1 bottom, rfl⟩
    · next top popped pop =>
      have undone : popped.rollback = stack.rollback := UndoStack.rollback_of_pop? pop
      have items : stack.items = top :: popped.items := UndoStack.items_of_pop? pop
      split at h
      · next kind =>
        obtain ⟨later, differs, matched, rest, lower, hsymbols, hitems, hfound⟩ := ih h
        refine ⟨later.trans undone, differs, top :: matched, rest, lower, ?_, ?_, hfound⟩
        · rw [hsymbols, List.map_cons, kind, List.cons_append]
        · rw [items, hitems, List.cons_append]
      · next kind =>
        cases h
        exact ⟨undone, kind ∘ Option.some.inj, [], _, symbols, rfl, items, rfl⟩

variable [GrammarSymbol S]

namespace Problem

variable {problem : Problem S} {branch : Branch S} {move : Move S} {rule : Rule S}
  {error : ParseError S}

theorem shift_refused (refused : (problem.shift branch).error = some error) :
    problem.stream.get? branch.cursor = none ∧
      problem.shift branch = .refusal (branch.enter .shift) .endOfStream none := by
  unfold shift at refused ⊢
  dsimp only at refused ⊢
  split at refused
  · next nothing => exact ⟨nothing, rfl⟩
  · cases refused

/-- A contraction is refused at the first tree from the top that is not what the
rule has there; all trees are put back. -/
theorem contract_refused (clean : branch.stack.popped = [])
    (refused : (problem.contract rule branch).error = some error) :
    ∃ matched rest symbol lower, rule.rhs.reverse = matched.map Token.kind ++ symbol :: lower ∧
      branch.stack.items = matched ++ rest ∧ rest.head?.map Token.kind ≠ some symbol ∧
      problem.contract rule branch = .refusal (branch.enter .reduce)
        (.reductionMismatch ((problem.table.first symbol).insert symbol)
          (rest.head?.map Token.kind)) (rest.head?.map Token.position) := by
  unfold contract at refused ⊢
  dsimp only at refused ⊢
  split at refused
  · next stack symbol found hpop =>
    obtain ⟨undone, differs, matched, rest, lower, hsymbols, hitems, rfl⟩ :=
      of_popSymbols_refused hpop
    refine ⟨matched, rest, symbol, lower, hsymbols, hitems, differs, ?_⟩
    have restored : stack.rollback = branch.stack := by
      rw [undone, Branch.stack_enter, UndoStack.rollback_of_clean clean]
    rw [restored]
    rfl
  · cases refused

theorem checkAdjacency_refused (refused : (problem.checkAdjacency branch).error = some error) :
    ∃ top rest, branch.stack.items = top :: rest ∧
      problem.table.canFollow (rest.head?.map Token.kind) top.kind = false ∧
      problem.checkAdjacency branch = .refusal (branch.enter .checkBranch)
        (.noApplicableRule (some top.kind) (problem.table.followers (rest.head?.map Token.kind)))
        (some top.position) := by
  unfold checkAdjacency at refused ⊢
  split at refused
  · cases refused
  · next top rest hitems =>
    dsimp only at refused
    split at refused
    · cases refused
    · next unseated =>
      refine ⟨top, rest, hitems, Bool.eq_false_iff.2 unseated, ?_⟩
      dsimp only
      rw [if_neg unseated]

theorem checkConsumed_refused (refused : (problem.checkConsumed branch).error = some error) :
    ∃ lexeme, problem.stream.lexemes[branch.cursor]? = some lexeme ∧
      problem.checkConsumed branch =
        .refusal branch (.noApplicableRule (some lexeme.kind) ∅) (some lexeme.position) := by
  unfold checkConsumed at refused ⊢
  split at refused
  · cases refused
  · next lexeme left =>
    rw [left]
    exact ⟨lexeme, rfl, rfl⟩

theorem checkHint_refused (refused : (checkHint move branch).error = some error) :
    ∃ expected, move.hint = some expected ∧ ¬move.HintMet branch.stack.items ∧
      checkHint move branch = .refusal (branch.enter .checkBranch)
        (.hintMismatch expected (branch.stack.items.head?.map Token.kind))
        (branch.stack.items.head?.map Token.position) := by
  have missed : ¬move.HintMet branch.stack.items := by
    intro met
    rw [checkHint_eq_success.2 ⟨met, rfl⟩] at refused
    cases refused
  have peek : (branch.enter .checkBranch).stack.peek? = branch.stack.items.head? := rfl
  unfold checkHint at refused ⊢
  split at refused
  · cases refused
  · next expected hint =>
    refine ⟨expected, hint, missed, ?_⟩
    dsimp only
    rw [peek]
    cases htop : branch.stack.items.head? with
    | none => rfl
    | some top =>
      have unmet : ¬(top.kind = expected ∨ top.kind ∈ move.item.lookaheads) := by
        intro met
        refine missed fun other same => ⟨top, htop, ?_⟩
        cases hint.symm.trans same
        exact met
      dsimp only
      rw [if_neg unmet]

/-! ## §2. Moves that are refused. -/

/-- The ways in which a move can be refused, each with the branch that it leaves
behind and with its failure. -/
inductive Refuses (problem : Problem S) (move : Move S) (before : Branch S) :
    Branch S → ParseError S → Prop where
  /-- No token is left to shift. -/
  | exhausted (action : move.item.action = .shift)
      (nothing : problem.stream.get? before.cursor = none) :
      Refuses problem move before (before.enter .shift) ⟨.endOfStream, .shift, none⟩
  /-- The trees from the top down are what the rule has, read backwards, until one
  is not, or until there is none. -/
  | mismatched {matched rest : List (Token S)} {symbol : S} {lower : List S}
      (action : move.item.action ≠ .shift)
      (shown : move.item.rule.rhs.reverse = matched.map Token.kind ++ symbol :: lower)
      (items : before.stack.items = matched ++ rest)
      (differs : rest.head?.map Token.kind ≠ some symbol) :
      Refuses problem move before (before.enter .reduce)
        ⟨.reductionMismatch ((problem.table.first symbol).insert symbol)
          (rest.head?.map Token.kind), .reduce, rest.head?.map Token.position⟩
  /-- A token is left, so the branch cannot be accepted. -/
  | unconsumed {lexeme : Lexeme S} (action : move.item.action = .accept)
      (left : problem.stream.lexemes[before.cursor]? = some lexeme) :
      Refuses problem move before (before.enter .accept)
        ⟨.noApplicableRule (some lexeme.kind) ∅, .accept, some lexeme.position⟩
  /-- The node may not sit on the tree below it, or at the bottom. -/
  | unseated {children rest : List (Token S)} (action : move.item.action ≠ .shift)
      (consumed : move.item.action = .accept → problem.stream.size ≤ before.cursor)
      (items : before.stack.items = children.reverse ++ rest)
      (kinds : children.map Token.kind = move.item.rule.rhs)
      (unfit : problem.table.canFollow (rest.head?.map Token.kind) move.item.rule.lhs = false) :
      Refuses problem move before
        { before.enter .checkBranch with
          stack := ⟨Token.reduce move.item.rule.lhs children :: rest, []⟩ }
        ⟨.noApplicableRule (some move.item.rule.lhs)
            (problem.table.followers (rest.head?.map Token.kind)),
          .checkBranch, some (Token.reduce move.item.rule.lhs children).position⟩
  /-- The item has been followed, but the hint is not met. -/
  | unannounced {trees : List (Token S)} {cursor : Nat} {expected : S}
      (rewrites : problem.Rewrites move.item before.stack.items before.cursor trees cursor)
      (hint : move.hint = some expected) (missed : ¬move.HintMet trees) :
      Refuses problem move before ((before.followed move.item trees cursor).enter .checkBranch)
        ⟨.hintMismatch expected (trees.head?.map Token.kind), .checkBranch,
          trees.head?.map Token.position⟩

/-- A reduction is refused before its right-hand side has been replaced by the
node, or after it. -/
theorem refuses_reduce (action : move.item.action ≠ .shift) (clean : branch.stack.popped = [])
    (consumed : move.item.action = .accept → problem.stream.size ≤ branch.cursor)
    (refused : (problem.reduce move.item.rule branch).error = some error) :
    ∃ after, problem.Refuses move branch after error ∧
      problem.reduce move.item.rule branch = ⟨after, some error⟩ := by
  rcases Attempt.andThen_refused refused with ⟨first, same⟩ | ⟨middle, through, second, same⟩
  · obtain ⟨matched, rest, symbol, lower, shown, items, differs, hcontract⟩ :=
      contract_refused clean first
    rw [hcontract] at first
    cases first
    exact ⟨_, .mismatched action shown items differs, same.trans hcontract⟩
  -- The node has been put there, and it is the top that the check looks at.
  · obtain ⟨children, rest, items, kinds, rfl⟩ := (contract_eq_success clean).1 through
    obtain ⟨top, below, htop, unfit, hcheck⟩ := checkAdjacency_refused second
    cases htop
    rw [hcheck] at second
    cases second
    exact ⟨_, .unseated action consumed items kinds unfit, same.trans hcheck⟩

/-- An acceptance is refused while tokens are left, or as a reduction. -/
theorem refuses_accept (action : move.item.action = .accept) (clean : branch.stack.popped = [])
    (refused : (problem.accept move.item.rule branch).error = some error) :
    ∃ after, problem.Refuses move branch after error ∧
      problem.accept move.item.rule branch = ⟨after, some error⟩ := by
  have reduces : move.item.action ≠ .shift := by
    rw [action]
    exact Action.noConfusion
  rcases Attempt.andThen_refused refused with ⟨inner, same⟩ | ⟨reduced, _, done, _⟩
  · have same : problem.accept move.item.rule branch = _ := same
    rw [same]
    rcases Attempt.andThen_refused inner with ⟨first, early⟩ | ⟨middle, through, second, late⟩
    · obtain ⟨lexeme, left, hcheck⟩ := checkConsumed_refused first
      rw [hcheck] at first
      cases first
      exact ⟨_, .unconsumed action left, early.trans hcheck⟩
    · obtain ⟨consumed, rfl⟩ := checkConsumed_eq_success.1 through
      -- The phase that has been entered is left again by the reduction.
      have noted : problem.reduce move.item.rule (branch.enter .accept) =
          problem.reduce move.item.rule branch := rfl
      rw [noted] at second late
      rw [late]
      exact refuses_reduce reduces clean (fun _ => consumed) second
  · cases done

/-- A step that is refused leaves one of these branches, with the failure that
belongs to it. -/
theorem refuses_step (clean : branch.stack.popped = [])
    (refused : (problem.step move branch).error = some error) :
    ∃ after, problem.Refuses move branch after error ∧
      problem.step move branch = ⟨after, some error⟩ := by
  rcases Attempt.andThen_refused refused with ⟨first, same⟩ | ⟨middle, through, second, same⟩
  · have same : problem.step move branch = _ := same
    rw [same]
    cases action : move.item.action with
    | shift =>
      simp only [action] at first ⊢
      obtain ⟨nothing, hshift⟩ := shift_refused first
      rw [hshift] at first ⊢
      cases first
      exact ⟨_, .exhausted action nothing, rfl⟩
    | reduce =>
      simp only [action] at first ⊢
      refine refuses_reduce ?_ clean (fun accepts => ?_) first
      · rw [action]
        exact Action.noConfusion
      · rw [action] at accepts
        cases accepts
    | accept =>
      simp only [action] at first ⊢
      exact refuses_accept action clean first
  -- Only the hint has not been met, so the item has been followed already.
  · obtain ⟨trees, cursor, rewrites, _, rfl⟩ :=
      (followWith_eq_success (judges_checkAdjacency problem) clean).1 through
    obtain ⟨expected, hint, missed, hcheck⟩ := checkHint_refused second
    rw [hcheck] at second
    cases second
    exact ⟨_, .unannounced rewrites hint missed, same.trans hcheck⟩

/-- A move that is refused in a branch that has not failed notes its failure in
the branch that its step leaves behind. -/
theorem refuses_apply (clean : branch.stack.popped = []) (alive : branch.error = none)
    (refused : (problem.apply move branch).error = some error) :
    ∃ after, problem.Refuses move (counted move branch) after error ∧
      problem.apply move branch = ⟨after.fail error, some error⟩ := by
  have clean' : (counted move branch).stack.popped = [] := clean
  rw [apply_eq problem move alive] at refused ⊢
  split at refused
  · cases refused
  · next failure step =>
    cases refused
    obtain ⟨after, refuses, hstep⟩ := refuses_step clean' step
    rw [hstep]
    exact ⟨after, refuses, rfl⟩

/-! ## §3. Moves that follow an item of the table. -/

/-- Such a move announces something only if it shifts. -/
theorem Rewrites.shifts_of_hint {symbol expected : S} {item : Item S} {trees trees' : List (Token S)}
    {cursor cursor' : Nat} (mem : item ∈ problem.table.items symbol)
    (hint : (Move.ofItem item).hint = some expected)
    (rewrites : problem.Rewrites item trees cursor trees' cursor') :
    ∃ token, problem.stream.get? cursor = some token ∧ trees' = token :: trees ∧
      cursor' = cursor + 1 := by
  cases rewrites with
  | shift _ next => exact ⟨_, next, rfl, rfl⟩
  | contract action => exact absurd (DecisionTable.action_of_next mem hint) action

/-- So it is never refused after the branch has been accepted. -/
theorem done_of_refuses {before after : Branch S} {symbol : S} {item : Item S}
    (mem : item ∈ problem.table.items symbol)
    (refuses : problem.Refuses (.ofItem item) before after error) : after.done = before.done := by
  cases refuses with
  | exhausted => rfl
  | mismatched => rfl
  | unconsumed => rfl
  | unseated => rfl
  | unannounced _ hint =>
    have action : item.action = .shift := DecisionTable.action_of_next mem hint
    show (before.done || item.isAccept) = before.done
    rw [Item.isAccept, action]
    exact Bool.or_false _

end Problem

end ShiftReduce
