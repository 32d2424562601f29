/-
  ShiftReduce.Proofs.ForkAlternatives
  ────────────────────────────────
  **WHAT CAN BECOME OF AN ALTERNATIVE OF A FORK.**

  Where several moves are proposed, the item of each of them has been compared
  with the stack, with the input and with the next token.  What nobody has looked
  at is the tree below the node that a reduction makes, so this is the one thing
  that can still refuse the move.  A sole move has not been compared with
  anything, and can be refused in other ways.

  Main statement: `alternatives_only_unseated`.
-/
import ShiftReduce.Proofs.Branch.Refusals
import ShiftReduce.Proofs.ExactPrediction

namespace ShiftReduce

variable {S : Type} [DecidableEq S] [GrammarSymbol S]

namespace Problem

variable {problem : Problem S} {branch after : Branch S} {error : ParseError S}

/-! ## §1. Items that match are refused for one reason only. -/

/-- The trees, top first, show the right-hand side of the rule, but its node may
not sit on what lies below: the failure of the phase in which branches are
checked, which names the node and lists what may sit there instead. -/
def Unseats (problem : Problem S) (rule : Rule S) (trees : List (Token S)) (error : ParseError S) :
    Prop :=
  ∃ children rest, trees = children.reverse ++ rest ∧ children.map Token.kind = rule.rhs ∧
    problem.table.canFollow (rest.head?.map Token.kind) rule.lhs = false ∧
    error = ⟨.noApplicableRule (some rule.lhs) (problem.table.followers (rest.head?.map Token.kind)),
      .checkBranch, some (Token.reduce rule.lhs children).position⟩

/-- A complete item that matches has its whole rule on the stack. -/
theorem Matches.shows_rule {item : Item S} (matched : problem.Matches branch item)
    (action : item.action ≠ .shift) : item.rule.rhs.reverse <+: branch.stack.items.map Token.kind := by
  obtain ⟨top, _, mem⟩ := matched.mem
  obtain ⟨rule, _, position, _, rfl⟩ := DecisionTable.mem_items.1 mem
  have last : rule.rhs.length ≤ position + 1 := Nat.not_lt.1 (mt RuleSet.action_itemAt_eq_shift.2 action)
  have fits : (rule.rhs.take (position + 1)).reverse <+: branch.stack.items.map Token.kind := matched.fits
  rw [List.take_of_length_le last] at fits
  exact fits

/-- An item that matches is refused only by its node, once that is in its place. -/
theorem unseats_of_refuses {item : Item S} (matched : problem.Matches branch item)
    (refuses : problem.Refuses (.ofItem item) (counted (.ofItem item) branch) after error) :
    item.action ≠ .shift ∧ problem.Unseats item.rule branch.stack.items error := by
  obtain ⟨top, _, mem⟩ := matched.mem
  cases refuses with
  | exhausted action nothing =>
    obtain ⟨lexeme, next, _⟩ := matched.next action
    have beyond : problem.stream.size ≤ branch.cursor := TokenStream.get?_eq_none_iff.1 nothing
    exact absurd (List.getElem?_eq_some_iff.1 next).1 (Nat.not_lt.2 beyond)
  | @mismatched shown rest symbol lower action rhs items differs =>
    have items : branch.stack.items = shown ++ rest := items
    have whole := matched.shows_rule action
    rw [items, List.map_append, show item.rule.rhs.reverse = _ from rhs,
      List.prefix_append_right_inj] at whole
    -- The rule has below what it shows just what the stack has there.
    obtain ⟨below, hbelow⟩ := whole
    refine absurd ?_ differs
    rw [← List.head?_map, ← hbelow]
    rfl
  | unconsumed action left =>
    have consumed : problem.stream.size ≤ branch.cursor := Nat.le_of_eq (matched.whole action).2.symm
    exact absurd (List.getElem?_eq_some_iff.1 left).1 (Nat.not_lt.2 consumed)
  | unseated action _ items kinds unfit => exact ⟨action, _, _, items, kinds, unfit, rfl⟩
  | @unannounced trees cursor expected rewrites hint missed =>
    -- Only a shift announces anything, and what it announces is the next token.
    obtain ⟨lexeme, next, admitted⟩ := matched.next (DecisionTable.action_of_next mem hint)
    obtain ⟨token, shifted, rfl, _⟩ := rewrites.shifts_of_hint mem hint
    obtain ⟨found, hfound, erased, _⟩ := TokenStream.get?_eq_some shifted
    cases next.symm.trans hfound
    refine absurd (fun other _ => ⟨token, rfl, .inr ?_⟩) missed
    rw [← Token.kind_erase, erased]
    exact admitted

/-! ## §2. Forks. -/

/-- Where several moves are proposed, each of them follows an item that matches. -/
theorem matches_of_several {move : Move S} (reachable : problem.Reachable branch)
    (going : branch.isOver = false) (several : 2 ≤ (problem.nextMoves branch).1.length)
    (proposed : move ∈ (problem.nextMoves branch).1) :
    ∃ item, move = .ofItem item ∧ problem.Matches branch item := by
  have clean := reachable.clean
  have linked := problem.linked_invariant.of_reachable reachable (Branch.isOver_eq_false_iff.1 going).1
  have some := verifiedItems_ne_nil going clean linked several
  rw [nextMoves_eq_verified clean going linked some] at proposed
  obtain ⟨item, mem, rfl⟩ := List.mem_map.1 proposed
  exact ⟨item, rfl, mem_verifiedItems.1 mem⟩

end Problem

/-- Of two moves or more that are proposed in a branch, however it was reached,
each one goes through or is refused by the check of adjacency: the node of its
rule is on the stack and may not sit there.  Either way the branch that it leads
to is reached in turn, so the same holds of it. -/
theorem alternatives_only_unseated {problem : Problem S} {branch : Branch S}
    (reachable : problem.Reachable branch) (several : 2 ≤ (problem.nextMoves branch).1.length) :
    ∀ move ∈ (problem.nextMoves branch).1,
      problem.Reachable (problem.apply move (problem.nextMoves branch).2).branch ∧
      ((problem.apply move (problem.nextMoves branch).2).error = none ∨
        ∃ error, (problem.apply move (problem.nextMoves branch).2).error = some error ∧
          move.item.action ≠ .shift ∧ problem.Unseats move.item.rule branch.stack.items error) := by
  intro move proposed
  refine ⟨reachable.looked.moved (reachable.knows proposed), ?_⟩
  have going : branch.isOver = false := by
    by_contra ended
    rw [Problem.nextMoves_of_isOver (Bool.eq_true_of_not_eq_false ended)] at several
    cases several
  obtain ⟨item, rfl, matched⟩ := Problem.matches_of_several reachable going several proposed
  -- What looking for moves has noted in the branch does not matter to a move.
  have looked : problem.apply (.ofItem item) (problem.nextMoves branch).2 =
      problem.apply (.ofItem item) branch :=
    Problem.applyWith_nextMoves problem.checkAdjacency _ reachable.clean (List.ne_nil_of_mem proposed)
  rw [looked]
  cases refused : (problem.apply (.ofItem item) branch).error with
  | none => exact .inl rfl
  | some error =>
    have alive := (Branch.isOver_eq_false_iff.1 going).2
    obtain ⟨after, refuses, _⟩ := Problem.refuses_apply reachable.clean alive refused
    exact .inr ⟨error, rfl, Problem.unseats_of_refuses matched refuses⟩

/-- With `E + T` on the stack the sum of two numbers forks.  `E => T` is refused,
since no `E` may sit on a `+`, and `E => E + T` goes through. -/
theorem alternatives_only_unseated_sum :
    ∃ branch, ∃ first second : Move Symbol, ∃ error,
      Problem.Reachable ⟨sumTable, sumStream⟩ branch ∧
      branch.stackKinds = [.nonTerminal "E", .terminal "+", .nonTerminal "T"] ∧
      (Problem.nextMoves ⟨sumTable, sumStream⟩ branch).1 = [first, second] ∧
      Problem.Unseats ⟨sumTable, sumStream⟩ first.item.rule branch.stack.items error ∧
      error.message = "[check-branch] no applicable rule for E, expecting T, n" ∧
      (Problem.apply ⟨sumTable, sumStream⟩ second
        (Problem.nextMoves ⟨sumTable, sumStream⟩ branch).2).error = none := by
  have known : ∀ move ∈ sumMoves, Problem.Knows ⟨sumTable, sumStream⟩ move := by
    decide +kernel
  have reachable := Problem.Reachable.replay known
  generalize hbranch : (Problem.machine ⟨sumTable, sumStream⟩).replay sumMoves = branch at reachable
  have two : (Problem.nextMoves ⟨sumTable, sumStream⟩ branch).1.length = 2 := by
    subst hbranch
    decide +kernel
  obtain ⟨first, second, moves⟩ := List.length_eq_two.1 two
  have each := alternatives_only_unseated reachable two.ge
  have outcomes : (Problem.nextMoves ⟨sumTable, sumStream⟩ branch).1.map (fun move =>
      (Problem.apply ⟨sumTable, sumStream⟩ move
        (Problem.nextMoves ⟨sumTable, sumStream⟩ branch).2).error.map ParseError.message) =
      [some "[check-branch] no applicable rule for E, expecting T, n", none] := by
    subst hbranch
    decide +kernel
  rw [moves] at each outcomes
  obtain ⟨refused, through⟩ := List.cons_eq_cons.1 outcomes
  dsimp only at refused
  rcases (each first (by simp)).2 with none | ⟨error, herror, _, unseats⟩
  · rw [none] at refused
    cases refused
  · rw [herror] at refused
    refine ⟨branch, first, second, error, reachable, ?_, moves, unseats, Option.some.inj refused,
      Option.map_eq_none_iff.1 (List.singleton_inj.1 through)⟩
    subst hbranch
    decide +kernel

end ShiftReduce
