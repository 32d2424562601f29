/-
  ShiftReduce.Proofs.Renumbering.Branch
  ────────────────────────────────
  **BRANCHES DO NOT LOOK AT THE NUMBERS OF RULES.**

  Only the items that a branch has noted mention rules.  By a table with other
  numbers the same branch, with other numbers in its notes, proposes the same
  moves in the same order, makes them in the same way, and ends in the very same
  result.

  Main statement: `renames_renumber`: the two machines are searched alike.
-/
import ShiftReduce.Branch.Prediction
import ShiftReduce.Proofs.Branch.Transition
import ShiftReduce.Proofs.Renaming.Search
import ShiftReduce.Proofs.Renumbering.Grammar

namespace ShiftReduce

variable {S : Type} [GrammarSymbol S] (g : Nat → Nat)

/-! ## §1. Branches with other numbers. -/

/-- The move along the item with the number of its rule changed. -/
def Move.renumber (move : Move S) : Move S :=
  { move with item := move.item.renumber g }

theorem Move.map_ofItem_renumber (items : List (Item S)) :
    (items.map (Item.renumber g)).map ofItem = (items.map ofItem).map (Move.renumber g) := by
  rw [List.map_map, List.map_map]
  rfl

namespace Branch

/-- The branch with the numbers of the rules it has noted changed. -/
def renumber (branch : Branch S) : Branch S :=
  branch.consider (branch.diagnostics.considered.map (Item.renumber g))

variable (branch : Branch S)

theorem cursor_renumber : (branch.renumber g).cursor = branch.cursor := rfl

theorem stack_renumber : (branch.renumber g).stack = branch.stack := rfl

theorem enter_renumber (phase : Phase) :
    (branch.renumber g).enter phase = (branch.enter phase).renumber g := rfl

theorem isOver_renumber : (branch.renumber g).isOver = branch.isOver := rfl

theorem interrupt_renumber : (branch.renumber g).interrupt = branch.interrupt.renumber g := by
  unfold interrupt
  rw [isOver_renumber]
  split
  · rfl
  · rfl

end Branch

namespace Attempt

/-- The attempt with the numbers of the rules noted in its branch changed. -/
def renumber (attempt : Attempt S) : Attempt S :=
  { attempt with branch := attempt.branch.renumber g }

/-- Operations in sequence do not look at the numbers if none of them does. -/
theorem andThen_renumber (attempt : Attempt S) {next next' : Branch S → Attempt S}
    (same : ∀ branch, next' (branch.renumber g) = (next branch).renumber g) :
    (attempt.renumber g).andThen next' = (attempt.andThen next).renumber g := by
  obtain ⟨branch, error⟩ := attempt
  cases error with
  | none => exact same branch
  | some error => rfl

end Attempt

/-! ## §2. Making moves. -/

variable [DecidableEq S] {g} {table image : DecisionTable S} {stream : TokenStream S}

namespace Problem

theorem shift_renumber (g : Nat → Nat) (table image : DecisionTable S) (branch : Branch S) :
    shift ⟨image, stream⟩ (branch.renumber g) = (shift ⟨table, stream⟩ branch).renumber g := by
  rw [shift, shift, Branch.enter_renumber, Branch.cursor_renumber]
  dsimp only
  cases stream.get? (branch.enter .shift).cursor with
  | none => rfl
  | some token => rfl

theorem checkConsumed_renumber (table : DecisionTable S) (branch : Branch S) :
    checkConsumed ⟨image, stream⟩ (branch.renumber g) =
      (checkConsumed ⟨table, stream⟩ branch).renumber g := by
  rw [checkConsumed, checkConsumed, Branch.cursor_renumber]
  dsimp only
  cases stream.lexemes[branch.cursor]? with
  | none => rfl
  | some lexeme => rfl

theorem checkHint_renumber (move : Move S) (branch : Branch S) :
    checkHint (move.renumber g) (branch.renumber g) = (checkHint move branch).renumber g := by
  obtain ⟨item, hint⟩ := move
  cases hint with
  | none => rfl
  | some expected =>
    show checkHint ⟨item.renumber g, some expected⟩ _ = _
    rw [checkHint, checkHint]
    dsimp only
    rw [Branch.enter_renumber, Branch.stack_renumber]
    -- The hint is compared with the top and the lookaheads, and neither has a number.
    cases (branch.enter .checkBranch).stack.peek? with
    | none => rfl
    | some top =>
      show (if top.kind = expected ∨ top.kind ∈ item.lookaheads then _ else _) =
        Attempt.renumber g (if top.kind = expected ∨ top.kind ∈ item.lookaheads then _ else _)
      rw [apply_ite (Attempt.renumber g)]
      rfl

section
variable (h : table.Renumbers g image)
include h

theorem contract_renumber (rule : Rule S) (branch : Branch S) :
    contract ⟨image, stream⟩ (rule.renumber g) (branch.renumber g) =
      (contract ⟨table, stream⟩ rule branch).renumber g := by
  rw [contract, contract, Branch.enter_renumber, Branch.stack_renumber]
  dsimp only [Rule.renumber]
  rw [h.first]
  -- What is popped depends on the right-hand side only.
  obtain ⟨stack, refused⟩ := popSymbols rule.rhs.reverse (branch.enter .reduce).stack
  cases refused with
  | none => rfl
  | some refused => rfl

theorem checkAdjacency_renumber (branch : Branch S) :
    checkAdjacency ⟨image, stream⟩ (branch.renumber g) =
      (checkAdjacency ⟨table, stream⟩ branch).renumber g := by
  rw [checkAdjacency, checkAdjacency, Branch.stack_renumber]
  cases branch.stack.items with
  | nil => rfl
  | cons top rest =>
    dsimp only
    rw [h.canFollow, h.followers, apply_ite (Attempt.renumber g)]
    rfl

theorem reduce_renumber (rule : Rule S) (branch : Branch S) :
    reduce ⟨image, stream⟩ (rule.renumber g) (branch.renumber g) =
      (reduce ⟨table, stream⟩ rule branch).renumber g := by
  rw [reduce, contract_renumber h, reduce]
  exact Attempt.andThen_renumber g _ (checkAdjacency_renumber h)

theorem accept_renumber (rule : Rule S) (branch : Branch S) :
    accept ⟨image, stream⟩ (rule.renumber g) (branch.renumber g) =
      (accept ⟨table, stream⟩ rule branch).renumber g := by
  rw [accept, accept, Branch.enter_renumber, checkConsumed_renumber table,
    Attempt.andThen_renumber g _ (reduce_renumber h rule)]
  exact Attempt.andThen_renumber g _ fun _ => rfl

theorem step_renumber (move : Move S) (branch : Branch S) :
    step ⟨image, stream⟩ (move.renumber g) (branch.renumber g) =
      (step ⟨table, stream⟩ move branch).renumber g := by
  have hinted (branch : Branch S) :
      checkHint (move.renumber g) (branch.renumber g) = (checkHint move branch).renumber g :=
    checkHint_renumber move branch
  obtain ⟨⟨rule, position, action, lookaheads⟩, hint⟩ := move
  cases action with
  | shift =>
    show (shift _ _).andThen _ = _
    rw [shift_renumber g table]
    exact Attempt.andThen_renumber g _ hinted
  | reduce =>
    show (reduce _ (rule.renumber g) _).andThen _ = _
    rw [reduce_renumber h]
    exact Attempt.andThen_renumber g _ hinted
  | accept =>
    show (accept _ (rule.renumber g) _).andThen _ = _
    rw [accept_renumber h]
    exact Attempt.andThen_renumber g _ hinted

theorem complete_renumber (branch : Branch S) :
    complete ⟨image, stream⟩ (branch.renumber g) = (complete ⟨table, stream⟩ branch).renumber g := by
  unfold complete
  dsimp only
  rw [h.start, h.acceptsExplicitly, Branch.isOver_renumber, apply_ite (Branch.renumber g),
    apply_ite (Branch.renumber g)]
  rfl

/-- A move with other numbers takes the branch to where the move takes it. -/
theorem apply_renumber (move : Move S) (branch : Branch S) :
    apply ⟨image, stream⟩ (move.renumber g) (branch.renumber g) =
      (apply ⟨table, stream⟩ move branch).renumber g := by
  cases herror : branch.error with
  | some error =>
    have failed : (branch.renumber g).error = some error := herror
    simp only [apply, herror, failed, Attempt.renumber]
  | none =>
    have alive : (branch.renumber g).error = none := herror
    have found : counted (move.renumber g) (branch.renumber g) = (counted move branch).renumber g := rfl
    rw [apply_eq _ _ alive, apply_eq _ _ herror, found, step_renumber h]
    obtain ⟨after, refused⟩ := step ⟨table, stream⟩ move (counted move branch)
    cases refused with
    | none =>
      show Attempt.success (complete ⟨image, stream⟩ (after.renumber g)) = _
      rw [complete_renumber h]
      rfl
    | some error => rfl

theorem start_renumber : start ⟨image, stream⟩ = (start ⟨table, stream⟩).renumber g := by
  have shifted : shift ⟨image, stream⟩ Branch.blank = (shift ⟨table, stream⟩ Branch.blank).renumber g :=
    shift_renumber g table image Branch.blank
  unfold start
  rw [shifted]
  obtain ⟨branch, error⟩ := shift ⟨table, stream⟩ (Branch.blank : Branch S)
  cases error with
  | none => exact complete_renumber h branch
  | some error => rfl

end

end Problem

/-! ## §3. Inspecting the stack. -/

namespace Inspection

omit [DecidableEq S]

/-- The inspection of the items with the numbers of their rules changed. -/
def renumber (g : Nat → Nat) (inspection : Inspection S) : Inspection S :=
  { inspection with
    live := inspection.live.map (Item.renumber g)
    settled := inspection.settled.map (Item.renumber g) }

variable (inspection : Inspection S)

theorem settle_renumber : (inspection.renumber g).settle = inspection.settle.renumber g := by
  unfold settle renumber
  dsimp only
  rw [List.filter_map, List.filter_map, List.map_append]
  rfl

theorem isDecided_renumber : (inspection.renumber g).isDecided = inspection.isDecided := by
  unfold isDecided renumber
  dsimp only
  rw [List.isEmpty_map, List.isEmpty_map, List.length_map]

theorem solutions_renumber :
    (inspection.renumber g).solutions = inspection.solutions.map (Item.renumber g) := by
  unfold solutions
  rw [List.map_append]
  rfl

variable [DecidableEq S]

theorem descend_renumber (kind : S) :
    (inspection.renumber g).descend kind = (inspection.descend kind).renumber g := by
  unfold descend renumber
  dsimp only
  rw [List.filter_map, List.filterMap_map]
  rfl

/-- Items with other numbers are told apart at the same place. -/
theorem run_renumber (items popped : List (Token S)) :
    (inspection.renumber g).run items popped =
      ((inspection.run items popped).1.renumber g, (inspection.run items popped).2) := by
  -- By induction on the stack: settling and descending ask for symbols, never for numbers.
  induction items generalizing inspection popped with
  | nil =>
    rw [run, run, settle_renumber, isDecided_renumber]
    split <;> rfl
  | cons top items ih =>
    rw [run, run, settle_renumber, isDecided_renumber]
    by_cases decided : inspection.settle.isDecided = true
    · rw [if_pos decided, if_pos decided]
    · rw [if_neg decided, if_neg decided, descend_renumber, ih]

end Inspection

/-! ## §4. Predicting. -/

/-- The proposed moves with other numbers, or the same reason why there is none. -/
def renumberOutcome (g : Nat → Nat) :
    Except (ParseError S) (List (Move S)) → Except (ParseError S) (List (Move S))
  | .ok moves => .ok (moves.map (Move.renumber g))
  | .error error => .error error

namespace Problem

theorem disambiguate_renumber (branch : Branch S) (top : Token S) (lookahead : Option S)
    (candidates : List (Item S)) :
    disambiguate (branch.renumber g) top lookahead (candidates.map (Item.renumber g)) =
      Prod.map (Branch.renumber g) (renumberOutcome g) (disambiguate branch top lookahead candidates) := by
  have admits : (fun item : Item S => item.admits lookahead) ∘ Item.renumber g =
      fun item => item.admits lookahead := rfl
  unfold disambiguate
  dsimp only
  rw [List.filter_map, admits, List.isEmpty_map, List.flatMap_map]
  generalize candidates.filter (fun item => item.admits lookahead) = live
  by_cases none : live.isEmpty = true
  · rw [if_pos none, if_pos none]
    rfl
  · rw [if_neg none, if_neg none, Branch.stack_renumber]
    have inspected : (Inspection.ofItems (live.map (Item.renumber g))).run branch.stack.items
        branch.stack.popped = _ :=
      (Inspection.ofItems live).run_renumber branch.stack.items branch.stack.popped
    rw [inspected]
    obtain ⟨inspection, stack⟩ := (Inspection.ofItems live).run branch.stack.items branch.stack.popped
    dsimp only
    rw [Inspection.solutions_renumber, List.isEmpty_map, Move.map_ofItem_renumber]
    by_cases lost : inspection.solutions.isEmpty = true
    · rw [if_pos lost, if_pos lost]
      rfl
    · rw [if_neg lost, if_neg lost]
      rfl

theorem candidates_renumber (table : DecisionTable S) (branch : Branch S) (depth : Nat)
    (items : List (Item S)) :
    candidates ⟨image, stream⟩ (branch.renumber g) depth (items.map (Item.renumber g)) =
      (candidates ⟨table, stream⟩ branch depth items).map (Item.renumber g) := by
  unfold candidates
  rw [List.filter_map]
  rfl

variable (h : table.Renumbers g image)
include h

theorem lacking_renumber (item : Item S) (depth : Nat) :
    lacking ⟨image, stream⟩ (item.renumber g) depth = lacking ⟨table, stream⟩ item depth := by
  unfold lacking
  dsimp only
  rw [h.first]
  rfl

/-- A branch predicts the same moves with other numbers, or fails for the same reason. -/
theorem predict_renumber (branch : Branch S) :
    predict ⟨image, stream⟩ (branch.renumber g) =
      Prod.map (Branch.renumber g) (renumberOutcome g) (predict ⟨table, stream⟩ branch) := by
  rw [predict, predict, Branch.stack_renumber]
  cases branch.stack.pop? with
  | none => rfl
  | some popped =>
    obtain ⟨top, stack⟩ := popped
    have settled : isSettled ⟨image, stream⟩ (branch.renumber g) = isSettled ⟨table, stream⟩ branch :=
      rfl
    have missing (items : List (Item S)) (depth : Nat) :
        (items.map (Item.renumber g)).flatMap (fun item => lacking ⟨image, stream⟩ item depth) =
          items.flatMap fun item => lacking ⟨table, stream⟩ item depth := by
      rw [List.flatMap_map]
      exact List.flatMap_congr fun item _ => lacking_renumber h item depth
    dsimp only
    rw [h.items, List.isEmpty_map, candidates_renumber table, settled, missing]
    by_cases unknown : (table.items top.kind).isEmpty = true
    · rw [if_pos unknown, if_pos unknown]
      cases isSettled ⟨table, stream⟩ branch <;> rfl
    · rw [if_neg unknown, if_neg unknown]
      cases candidates ⟨table, stream⟩ branch branch.stack.size (table.items top.kind) with
      | nil =>
        have looked : { branch.renumber g with stack }.consider [] =
            ({ branch with stack }.consider []).renumber g := rfl
        rw [List.map_nil, looked]
        dsimp only
        have sameAccepts : (fun item : Item S => item.isAccept && decide (item.span = branch.stack.size)) ∘
            Item.renumber g = fun item => item.isAccept && decide (item.span = branch.stack.size) := rfl
        rw [List.any_map, sameAccepts, checkConsumed_renumber table]
        by_cases accepts : ((table.items top.kind).any fun item =>
            item.isAccept && item.span = branch.stack.size) = true
        · rw [if_pos accepts, if_pos accepts]
          obtain ⟨_, refused⟩ := checkConsumed ⟨table, stream⟩ (Branch.consider
            ⟨branch.cursor, stack, branch.steps, branch.done, branch.error, branch.diagnostics⟩ [])
          cases refused <;> rfl
        · rw [if_neg accepts, if_neg accepts]
          rfl
      | cons first others =>
        cases others with
        | nil => rfl
        | cons second others =>
          exact disambiguate_renumber ({ branch with stack }.consider (first :: second :: others)) top
            (top.lookaheadKind? stream) (first :: second :: others)

theorem nextMoves_renumber (branch : Branch S) :
    nextMoves ⟨image, stream⟩ (branch.renumber g) =
      Prod.map (List.map (Move.renumber g)) (Branch.renumber g) (nextMoves ⟨table, stream⟩ branch) := by
  unfold nextMoves
  rw [Branch.isOver_renumber]
  by_cases isOver : branch.isOver = true
  · rw [if_pos isOver, if_pos isOver]
    rfl
  · rw [if_neg isOver, if_neg isOver, Branch.enter_renumber, predict_renumber h]
    obtain ⟨inspected, outcome⟩ := predict ⟨table, stream⟩ (branch.enter .predict)
    cases outcome with
    | ok moves => rfl
    | error error => rfl

/-! ## §5. The two machines. -/

/-- The machines of the two tables are searched alike: every symbol stays what it is. -/
theorem renames_renumber (stream : TokenStream S) :
    (machine ⟨table, stream⟩).Renames Renaming.refl (machine ⟨image, stream⟩) (Branch.renumber g)
      (Move.renumber g) where
  start := start_renumber h
  isOver branch := branch.isOver_renumber g
  moves branch := nextMoves_renumber h branch
  play branch move := by
    show ((apply ⟨image, stream⟩ (move.renumber g) (branch.renumber g)).branch,
      (apply ⟨image, stream⟩ (move.renumber g) (branch.renumber g)).error.isSome) = _
    rw [apply_renumber h]
    rfl
  interrupt branch := branch.interrupt_renumber g
  result branch := by
    rw [ParseResult.rename_refl]
    rfl

end Problem

end ShiftReduce
